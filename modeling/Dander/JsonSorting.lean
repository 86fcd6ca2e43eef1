import Dander.JsonRoundTrip

/-!
# Sorted documents

Sorting the members of the objects of a value changes neither what is found under a key nor
whether the value can be written and read back.
-/
namespace JsonText

section Sorting

theorem lookup_eq_some {key : String} {members : List (String × Json)} {value : Json}
    (h : (members.map Prod.fst).Nodup) :
    lookup key members = some value ↔ (key, value) ∈ members := by
  unfold lookup
  rw [Option.map_eq_some_iff]
  constructor
  · rintro ⟨member, hfound, rfl⟩
    have hkey := List.find?_some hfound
    rw [decide_eq_true_eq] at hkey
    subst hkey
    exact List.mem_of_find?_eq_some hfound
  · intro hmem
    cases hfound : members.find? fun member => decide (member.1 = key) with
    | none =>
      have := List.find?_eq_none.mp hfound _ hmem
      simp at this
    | some member =>
      have hkey := List.find?_some hfound
      rw [decide_eq_true_eq] at hkey
      have hsame := List.inj_on_of_nodup_map h (List.mem_of_find?_eq_some hfound) hmem hkey
      exact ⟨member, rfl, by rw [hsame]⟩

/-- The place of a member does not matter. -/
theorem lookup_perm {key : String} {members members' : List (String × Json)}
    (hperm : members.Perm members') (h : (members.map Prod.fst).Nodup) :
    lookup key members = lookup key members' := by
  have h' : (members'.map Prod.fst).Nodup := (hperm.map Prod.fst).nodup_iff.mp h
  ext value
  rw [lookup_eq_some h, lookup_eq_some h', hperm.mem_iff]

theorem map_fst_sortMembers (members : List (String × Json)) :
    (sortMembers members).map Prod.fst = members.map Prod.fst := by
  induction members with
  | nil => rfl
  | cons member rest ih => simp [sortMembers, ih]

theorem lookup_sortMembers (key : String) (members : List (String × Json)) :
    lookup key (sortMembers members) = (lookup key members).map sortKeys := by
  induction members with
  | nil => rfl
  | cons member rest ih =>
    obtain ⟨name, value⟩ := member
    by_cases hname : name = key
    · simp [lookup, sortMembers, hname]
    · simpa [lookup, sortMembers, hname] using ih

/-- The members of a sorted object. -/
def sortedMembers (members : List (String × Json)) : List (String × Json) :=
  (sortMembers members).insertionSort fun a b => a.1 ≤ b.1

theorem perm_sortedMembers (members : List (String × Json)) :
    (sortedMembers members).Perm (sortMembers members) := List.perm_insertionSort _ _

theorem nodup_sortedMembers {members : List (String × Json)} (h : (members.map Prod.fst).Nodup) :
    ((sortedMembers members).map Prod.fst).Nodup := by
  rw [((perm_sortedMembers members).map Prod.fst).nodup_iff, map_fst_sortMembers]
  exact h

@[simp] theorem sortKeys_obj (members : List (String × Json)) :
    sortKeys (.obj members) = .obj (sortedMembers members) := rfl

@[simp] theorem sortKeys_arr (items : List Json) :
    sortKeys (.arr items) = .arr (sortItems items) := rfl

@[simp] theorem sortKeys_str (value : String) : sortKeys (.str value) = .str value := rfl
@[simp] theorem sortKeys_int (n : ℤ) : sortKeys (.int n) = .int n := rfl

theorem lookup_sortedMembers {key : String} {members : List (String × Json)}
    (h : (members.map Prod.fst).Nodup) :
    lookup key (sortedMembers members) = (lookup key members).map sortKeys := by
  rw [lookup_perm (perm_sortedMembers members) (nodup_sortedMembers h), lookup_sortMembers]

@[simp] theorem wellFormed_str (value : String) : WellFormed (.str value) := trivial

theorem membersWellFormed_iff {members : List (String × Json)} :
    MembersWellFormed members ↔ ∀ member ∈ members, WellFormed member.2 := by
  induction members with
  | nil => simp [MembersWellFormed]
  | cons member rest ih => simp [MembersWellFormed, ih]

theorem printableMembers_iff {members : List (String × Json)} :
    printableMembers members = true ↔ ∀ member ∈ members, printable member.2 = true := by
  induction members with
  | nil => simp [printableMembers]
  | cons member rest ih => simp [printableMembers, ih]

mutual

theorem wellFormed_sortKeys : ∀ value : Json, WellFormed value → WellFormed (sortKeys value)
  | .null, h => h
  | .bool _, h => h
  | .int _, h => h
  | .float _, h => h
  | .str _, h => h
  | .arr items, h => wellFormed_sortItems items h
  | .obj members, h => by
    refine ⟨nodup_sortedMembers h.1, membersWellFormed_iff.mpr ?_⟩
    intro member hmem
    exact membersWellFormed_iff.mp (wellFormed_sortMembers members h.2) member
      ((perm_sortedMembers members).mem_iff.mp hmem)

theorem wellFormed_sortItems : ∀ items : List Json, ItemsWellFormed items →
    ItemsWellFormed (sortItems items)
  | [], _ => trivial
  | item :: rest, h => ⟨wellFormed_sortKeys item h.1, wellFormed_sortItems rest h.2⟩

theorem wellFormed_sortMembers : ∀ members : List (String × Json), MembersWellFormed members →
    MembersWellFormed (sortMembers members)
  | [], _ => trivial
  | (_, value) :: rest, h => ⟨wellFormed_sortKeys value h.1, wellFormed_sortMembers rest h.2⟩

end

mutual

@[simp] theorem printable_sortKeys : ∀ value : Json, printable (sortKeys value) = printable value
  | .null => rfl
  | .bool _ => rfl
  | .int _ => rfl
  | .float _ => rfl
  | .str _ => rfl
  | .arr items => printable_sortItems items
  | .obj members => by
    rw [sortKeys_obj, printable, printable, Bool.eq_iff_iff, printableMembers_iff,
      ← printable_sortMembers members, printableMembers_iff]
    exact forall_congr' fun member => imp_congr_left (perm_sortedMembers members).mem_iff

theorem printable_sortItems : ∀ items : List Json,
    printableItems (sortItems items) = printableItems items
  | [] => rfl
  | item :: rest => by
    rw [sortItems, printableItems, printableItems, printable_sortKeys item,
      printable_sortItems rest]

theorem printable_sortMembers : ∀ members : List (String × Json),
    printableMembers (sortMembers members) = printableMembers members
  | [] => rfl
  | (_, value) :: rest => by
    rw [sortMembers, printableMembers, printableMembers, printable_sortKeys value,
      printable_sortMembers rest]

end

end Sorting

end JsonText
