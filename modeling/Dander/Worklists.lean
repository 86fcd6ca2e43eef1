import Mathlib.Logic.Relation
import Mathlib.Data.List.Count
import Mathlib.Tactic.Common

/-!
# Worklists

What edges reach from some vertices is found with a list of the vertices whose successors are still
to be added. Each round takes one off and adds those of its successors that are new.
-/
namespace Worklist

open Relation (ReflTransGen)

variable {α : Type*} [DecidableEq α] {edges : List (α × α)} {pending reached : List α} {a b : α}

/-- The new vertices that a vertex points to. -/
def fresh (edges : List (α × α)) (reached : List α) (a : α) : List α :=
  (edges.filter fun edge => edge.1 = a ∧ edge.2 ∉ reached).map Prod.snd

theorem mem_fresh : b ∈ fresh edges reached a ↔ (a, b) ∈ edges ∧ b ∉ reached := by
  simp [fresh, and_assoc]

omit [DecidableEq α] in
theorem countP_add_le {p q r : α → Bool} {l : List α} (hq : ∀ x ∈ l, q x → p x ∧ ¬ r x)
    (hr : ∀ x, r x → p x) : l.countP q + l.countP r ≤ l.countP p := by
  induction l with
  | nil => simp
  | cons x rest ih =>
    have hrest := ih fun y hy => hq y (List.mem_cons_of_mem _ hy)
    have hx := hq x List.mem_cons_self
    have hx' := hr x
    simp only [List.countP_cons]
    grind

theorem new_targets_lt (edges : List (α × α)) (reached : List α) (a : α) :
    (fresh edges reached a).length +
    edges.countP (fun edge => edge.2 ∉ fresh edges reached a ++ reached) ≤
      edges.countP fun edge => edge.2 ∉ reached := by
  have hlength : (fresh edges reached a).length =
      edges.countP fun edge => edge.1 = a ∧ edge.2 ∉ reached := by
    rw [fresh, List.length_map, List.countP_eq_length_filter]
  rw [hlength]
  apply countP_add_le
  · rintro ⟨source, target⟩ hedge hnew
    grind [mem_fresh]
  · grind

/-- Every round adds its new vertices to both lists, until none is left to be looked at. -/
def spread (edges : List (α × α)) : List α → List α → List α
  | [], reached => reached
  | a :: rest, reached =>
    spread edges (fresh edges reached a ++ rest) (fresh edges reached a ++ reached)
termination_by pending reached => pending.length + edges.countP fun edge => edge.2 ∉ reached
decreasing_by
  have := new_targets_lt edges reached a
  simp only [List.length_append, List.length_cons]
  omega

/-- The worklist finds what the edges reach. -/
theorem mem_spread (hpending : pending ⊆ reached)
    (hdone : ∀ edge ∈ edges, edge.1 ∈ reached → edge.1 ∈ pending ∨ edge.2 ∈ reached) :
    b ∈ spread edges pending reached ↔
      ∃ a ∈ reached, ReflTransGen (fun a b => (a, b) ∈ edges) a b := by
  induction pending, reached using spread.induct edges with
  | case1 reached =>
    rw [spread]
    refine ⟨fun hb => ⟨b, hb, .refl⟩, ?_⟩
    rintro ⟨a, ha, hpath⟩
    induction hpath with
    | refl => exact ha
    | tail _ hedge ih => exact (hdone _ hedge ih).resolve_left (List.not_mem_nil)
  | case2 a rest reached ih =>
    rw [spread, ih]
    · constructor
      · rintro ⟨c, hc, hpath⟩
        rcases List.mem_append.mp hc with hnew | hold
        · exact ⟨a, hpending List.mem_cons_self, .head (mem_fresh.mp hnew).1 hpath⟩
        · exact ⟨c, hold, hpath⟩
      · rintro ⟨c, hc, hpath⟩
        exact ⟨c, List.mem_append_right _ hc, hpath⟩
    · intro c hc
      rcases List.mem_append.mp hc with hnew | hold
      · exact List.mem_append_left _ hnew
      · exact List.mem_append_right _ (hpending (List.mem_cons_of_mem _ hold))
    · rintro ⟨source, target⟩ hedge hsource
      have hedgeDone := hdone _ hedge
      grind [mem_fresh]

omit [DecidableEq α] in
/-- A path is one of another relation too, which agrees wherever its own paths end as well. -/
theorem path_of_agree {R S : α → α → Prop} (h : ∀ a c, ReflTransGen S c b → R a c → S a c)
    (hpath : ReflTransGen R a b) : ReflTransGen S a b := by
  induction hpath using ReflTransGen.head_induction_on with
  | refl => exact .refl
  | head hedge _ ih => exact .head (h _ _ ih hedge) ih

end Worklist
