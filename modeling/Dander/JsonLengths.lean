import Dander.JsonSorting

/-!
# The lengths of written documents

A bound that does not depend on the order of the members of objects.
-/
namespace JsonText

section Texts

theorem length_hex4 (n : ℕ) : (hex4 n).length = 4 := rfl

theorem length_escapeChar_le (c : Char) : (escapeChar false c).length ≤ 6 := by
  unfold escapeChar
  split_ifs with h₁ h₂ h₃ h₄ h₅ h₆ h₇ h₈
  all_goals first
    | decide
    | skip
  · have hsmall : c.toNat < 65536 := by omega
    rw [escapeUnicode, if_pos hsmall, List.length_cons, List.length_cons, length_hex4]
  · simp_all
  · simp

theorem length_flatMap_escapeChar_le (chars : List Char) :
    (chars.flatMap (escapeChar false)).length ≤ 6 * chars.length := by
  induction chars with
  | nil => simp
  | cons c chars ih =>
    have hc := length_escapeChar_le c
    rw [List.flatMap_cons, List.length_append, List.length_cons]
    omega

theorem length_stringText_le (value : String) :
    (stringText false value).length ≤ 6 * value.toList.length + 2 := by
  have hchars := length_flatMap_escapeChar_le value.toList
  simp only [stringText, List.length_cons, List.length_append, List.length_nil]
  omega

theorem length_intText_le (n : ℤ) :
    (intText n).length ≤ (Nat.toDigits 10 n.natAbs).length + 1 := by
  unfold intText
  split
  · rw [List.length_cons]
  · omega

/-- UTF-8 takes at most four bytes for a character. -/
theorem utf8ByteSize_le (chars : List Char) :
    (String.ofList chars).utf8ByteSize ≤ 4 * chars.length := by
  induction chars with
  | nil => simp
  | cons c rest ih =>
    have hc : c.utf8Size ≤ 4 := Char.utf8Size_le_four c
    have hcons : String.ofList (c :: rest) = String.singleton c ++ String.ofList rest := by
      apply String.toList_injective
      simp
    rw [hcons, String.utf8ByteSize_append, String.utf8ByteSize_singleton, List.length_cons]
    omega

end Texts

section Documents

variable (style : Style)

theorem Style.length_separator_le (c : Char) : (style.separator c).length ≤ 2 := by
  unfold Style.separator Style.pad
  split <;> simp

mutual

/-- A bound on the length of the text of a value. -/
def width : Json → ℕ
  | .null => 4
  | .bool _ => 5
  | .int n => (intText n).length
  | .float written => written.toList.length
  | .str value => (stringText style.ensureAscii value).length
  | .arr items => 1 + itemsWidth items
  | .obj members => 1 + membersWidth members

def itemsWidth : List Json → ℕ
  | [] => 1
  | item :: rest => width item + 2 + itemsWidth rest

def membersWidth : List (String × Json) → ℕ
  | [] => 1
  | (key, value) :: rest =>
    (stringText style.ensureAscii key).length + 2 + width value + 2 + membersWidth rest

end

mutual

theorem length_text_le : ∀ value : Json, (text style value).length ≤ width style value
  | .null => by simp [text, width]
  | .bool true => by simp [text, width]
  | .bool false => by simp [text, width]
  | .int n => le_of_eq (by rw [text, width])
  | .float written => le_of_eq (by rw [text, width])
  | .str value => le_of_eq (by rw [text, width])
  | .arr items => by
    have hitems := length_itemsText_le items
    rw [text, width, List.length_cons]
    omega
  | .obj members => by
    have hmembers := length_membersText_le members
    rw [text, width, List.length_cons]
    omega

theorem length_itemsText_le : ∀ items : List Json,
    (itemsText style items).length ≤ itemsWidth style items
  | [] => by simp [itemsText, itemsWidth]
  | item :: rest => by
    have hitem := length_text_le item
    have hrest := length_moreItemsText_le rest
    rw [itemsText, itemsWidth, List.length_append]
    omega

theorem length_moreItemsText_le : ∀ items : List Json,
    (moreItemsText style items).length ≤ 2 + itemsWidth style items
  | [] => by simp [moreItemsText, itemsWidth]
  | item :: rest => by
    have hitem := length_text_le item
    have hrest := length_moreItemsText_le rest
    have hseparator := style.length_separator_le ','
    rw [moreItemsText, itemsWidth, List.length_append, List.length_append]
    omega

theorem length_membersText_le : ∀ members : List (String × Json),
    (membersText style members).length ≤ membersWidth style members
  | [] => by simp [membersText, membersWidth]
  | (key, value) :: rest => by
    have hvalue := length_text_le value
    have hrest := length_moreMembersText_le rest
    have hcolon := style.length_separator_le ':'
    rw [membersText, membersWidth]
    simp only [List.length_append]
    omega

theorem length_moreMembersText_le : ∀ members : List (String × Json),
    (moreMembersText style members).length ≤ 2 + membersWidth style members
  | [] => by simp [moreMembersText, membersWidth]
  | (key, value) :: rest => by
    have hvalue := length_text_le value
    have hrest := length_moreMembersText_le rest
    have hcomma := style.length_separator_le ','
    have hcolon := style.length_separator_le ':'
    rw [moreMembersText, membersWidth]
    simp only [List.length_append]
    omega

end

theorem membersWidth_perm {members members' : List (String × Json)}
    (h : members.Perm members') : membersWidth style members = membersWidth style members' := by
  induction h with
  | nil => rfl
  | cons member hperm ih =>
    obtain ⟨key, value⟩ := member
    simp only [membersWidth, ih]
  | swap first second rest =>
    obtain ⟨key, value⟩ := first
    obtain ⟨key', value'⟩ := second
    simp only [membersWidth]
    omega
  | trans _ _ ih ih' => rw [ih, ih']

mutual

/-- Sorting keeps the bound. -/
theorem width_sortKeys : ∀ value : Json, width style (sortKeys value) = width style value
  | .null => rfl
  | .bool _ => rfl
  | .int _ => rfl
  | .float _ => rfl
  | .str _ => rfl
  | .arr items => by
    rw [sortKeys_arr, width, width, itemsWidth_sortItems items]
  | .obj members => by
    rw [sortKeys_obj, width, width, membersWidth_perm style (perm_sortedMembers members),
      membersWidth_sortMembers members]

theorem itemsWidth_sortItems : ∀ items : List Json,
    itemsWidth style (sortItems items) = itemsWidth style items
  | [] => rfl
  | item :: rest => by
    rw [sortItems, itemsWidth, itemsWidth, width_sortKeys item, itemsWidth_sortItems rest]

theorem membersWidth_sortMembers : ∀ members : List (String × Json),
    membersWidth style (sortMembers members) = membersWidth style members
  | [] => rfl
  | (_, value) :: rest => by
    rw [sortMembers, membersWidth, membersWidth, width_sortKeys value,
      membersWidth_sortMembers rest]

end

end Documents

end JsonText
