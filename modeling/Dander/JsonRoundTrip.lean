import Dander.JsonText

/-!
# Reading what was written

The text of a value with short integers, without fractions and with distinct keys in each object
is read as the value, whatever the style. The induction is on the value, with the fuel of the
reader bounded by the length of the text.
-/
namespace JsonText

section Strings

variable (ensureAscii : Bool)

theorem hexValue_hexDigit {n : ℕ} (h : n < 16) : hexValue (hexDigit n) = some n := by
  have hall : ∀ k < 16, hexValue (hexDigit k) = some k := by decide
  exact hall n h

theorem readHex4_hex4 {n : ℕ} (h : n < 65536) (rest : List Char) :
    readHex4 (hex4 n ++ rest) = .ok (n, rest) := by
  have h1 := hexValue_hexDigit (n := n / 4096) (by omega)
  have h2 := hexValue_hexDigit (n := n / 256 % 16) (by omega)
  have h3 := hexValue_hexDigit (n := n / 16 % 16) (by omega)
  have h4 := hexValue_hexDigit (n := n % 16) (by omega)
  have hsum : n / 4096 * 4096 + n / 256 % 16 * 256 + n / 16 % 16 * 16 + n % 16 = n := by omega
  simp only [hex4, List.cons_append, List.nil_append, readHex4, h1, h2, h3, h4, hsum]

theorem toNat_lt (c : Char) : c.toNat < 55296 ∨ 57344 ≤ c.toNat ∧ c.toNat < 1114112 := by
  have h := c.valid
  simp only [UInt32.isValidChar, Nat.isValidChar] at h
  have hval : c.toNat = c.val.toNat := rfl
  omega

theorem readUnicode_hex4 {n : ℕ} (h : n < 55296 ∨ 57344 ≤ n ∧ n < 65536) (rest : List Char) :
    readUnicode (hex4 n ++ rest) = .ok (some (Char.ofNat n), rest) := by
  have hread := readHex4_hex4 (n := n) (by omega) rest
  have hnot : ¬ (55296 ≤ n ∧ n < 56320) := by omega
  have hnot' : ¬ (56320 ≤ n ∧ n < 57344) := by omega
  simp only [readUnicode, hread, bind, Except.bind, if_neg hnot, if_neg hnot', pure, Except.pure]

theorem readUnicode_pair (high low : ℕ) (hhigh : high < 1024) (hlow : low < 1024)
    (rest : List Char) :
    readUnicode (hex4 (55296 + high) ++ '\\' :: 'u' :: (hex4 (56320 + low) ++ rest)) =
      .ok (some (Char.ofNat (65536 + high * 1024 + low)), rest) := by
  have hread := readHex4_hex4 (n := 55296 + high) (by omega)
    ('\\' :: 'u' :: (hex4 (56320 + low) ++ rest))
  have hread' := readHex4_hex4 (n := 56320 + low) (by omega) rest
  have hin : 55296 ≤ 55296 + high ∧ 55296 + high < 56320 := by omega
  have hin' : 56320 ≤ 56320 + low ∧ 56320 + low < 57344 := by omega
  simp only [readUnicode, hread, bind, Except.bind, if_pos hin, readLowSurrogate, hread',
    if_pos hin', pure, Except.pure, Nat.add_sub_cancel_left]

theorem readEscape_escapeUnicode (c : Char) (rest : List Char) :
    readEscape ((escapeUnicode c.toNat).tail ++ rest) = .ok (some c, rest) := by
  have hrange := toNat_lt c
  have hchar := Char.ofNat_toNat c
  generalize c.toNat = n at hrange hchar
  by_cases hbasic : n < 65536
  · have hread := readUnicode_hex4 (n := n) (by omega) rest
    simp only [escapeUnicode, if_pos hbasic, List.tail_cons, List.cons_append, readEscape, hread,
      hchar]
  · have hread := readUnicode_pair ((n - 65536) / 1024) ((n - 65536) % 1024)
      (by omega) (by omega) rest
    have hvalue : 65536 + (n - 65536) / 1024 * 1024 + (n - 65536) % 1024 = n := by omega
    simp only [escapeUnicode, if_neg hbasic, List.tail_cons, List.cons_append, List.append_assoc,
      readEscape, hread, hvalue, hchar]

theorem escapeUnicode_eq (n : ℕ) : escapeUnicode n = '\\' :: (escapeUnicode n).tail := by
  unfold escapeUnicode
  split <;> rfl

theorem readChar_escape (escaped rest : List Char) :
    readChar ('\\' :: escaped ++ rest) = readEscape (escaped ++ rest) := rfl

theorem readChar_escapeChar (c : Char) (rest : List Char) :
    readChar (escapeChar ensureAscii c ++ rest) = .ok (some c, rest) := by
  have hunicode : readChar (escapeUnicode c.toNat ++ rest) = .ok (some c, rest) := by
    rw [escapeUnicode_eq, readChar_escape, readEscape_escapeUnicode]
  unfold escapeChar
  by_cases hquote : c = '"'
  · subst hquote
    rfl
  by_cases hslash : c = '\\'
  · subst hslash
    rfl
  by_cases hn : c = '\n'
  · subst hn
    rfl
  by_cases hr : c = '\r'
  · subst hr
    rfl
  by_cases ht : c = '\t'
  · subst ht
    rfl
  by_cases hb : c = Char.ofNat 8
  · subst hb
    rfl
  by_cases hf : c = Char.ofNat 12
  · subst hf
    rfl
  rw [if_neg hquote, if_neg hslash, if_neg hn, if_neg hr, if_neg ht, if_neg hb, if_neg hf]
  by_cases hcontrol : c.toNat < 32
  · rw [if_pos hcontrol]
    exact hunicode
  rw [if_neg hcontrol]
  by_cases hascii : (ensureAscii && decide (126 < c.toNat)) = true
  · rw [if_pos hascii]
    exact hunicode
  · rw [if_neg hascii]
    simp only [List.cons_append, List.nil_append, readChar, if_neg hquote, if_neg hslash,
      if_neg hcontrol]

theorem readChars_text (chars rest : List Char) (fuel : ℕ) (h : chars.length < fuel) :
    readChars fuel (chars.flatMap (escapeChar ensureAscii) ++ '"' :: rest) = .ok (chars, rest) := by
  induction chars generalizing fuel with
  | nil =>
    obtain ⟨fuel, rfl⟩ := Nat.exists_eq_succ_of_ne_zero (by omega : fuel ≠ 0)
    rfl
  | cons c chars ih =>
    obtain ⟨fuel, rfl⟩ := Nat.exists_eq_succ_of_ne_zero (by omega : fuel ≠ 0)
    have hrest := ih fuel (by simpa using h)
    rw [List.flatMap_cons, List.append_assoc, readChars, readChar_escapeChar ensureAscii]
    simp only [bind, Except.bind, hrest, pure, Except.pure]

theorem length_le_flatMap_escapeChar (chars : List Char) :
    chars.length ≤ (chars.flatMap (escapeChar ensureAscii)).length := by
  induction chars with
  | nil => simp
  | cons c chars ih =>
    have hpos : 1 ≤ (escapeChar ensureAscii c).length := by
      unfold escapeChar escapeUnicode
      split_ifs <;> simp
    simp only [List.length_cons, List.flatMap_cons, List.length_append]
    omega

theorem readString_text (value : String) (rest : List Char) :
    readString ((stringText ensureAscii value).tail ++ rest) = .ok (value, rest) := by
  have hlength := length_le_flatMap_escapeChar ensureAscii value.toList
  have hread := readChars_text ensureAscii value.toList rest
    (((stringText ensureAscii value).tail ++ rest).length + 1) (by
      simp only [stringText, List.tail_cons, List.length_append]
      omega)
  rw [readString]
  have htail : (stringText ensureAscii value).tail ++ rest =
      value.toList.flatMap (escapeChar ensureAscii) ++ '"' :: rest := by
    simp [stringText]
  rw [htail] at hread ⊢
  simp only [hread, bind, Except.bind, pure, Except.pure, String.ofList_toList]

end Strings

section Numbers

/-- What follows a value in a document: nothing, or a separator. -/
def Delimited (rest : List Char) : Prop := ∀ c, rest.head? = some c → c = ',' ∨ c = ']' ∨ c = '}'

theorem Delimited.nil : Delimited [] := by
  intro c h
  cases h

theorem Delimited.cons {c : Char} {rest : List Char} (h : c = ',' ∨ c = ']' ∨ c = '}') :
    Delimited (c :: rest) := by
  intro d hd
  rw [List.head?_cons, Option.some.injEq] at hd
  subst hd
  exact h

variable {rest : List Char}

theorem Delimited.takeWhile_append (h : Delimited rest) {digits : List Char}
    (hdigits : ∀ c ∈ digits, c.isDigit = true) :
    (digits ++ rest).takeWhile Char.isDigit = digits ∧
      (digits ++ rest).dropWhile Char.isDigit = rest := by
  induction digits with
  | nil =>
    cases rest with
    | nil => exact ⟨rfl, rfl⟩
    | cons c rest =>
      have hc : c.isDigit = false := by
        rcases h c rfl with rfl | rfl | rfl <;> decide
      simp [hc]
  | cons c digits ih =>
    have hc := hdigits c (by simp)
    obtain ⟨htake, hdrop⟩ := ih fun d hd => hdigits d (List.mem_cons_of_mem _ hd)
    simp [hc, htake, hdrop]

theorem Delimited.fraction (h : Delimited rest) : fraction rest = ([], rest) := by
  cases rest with
  | nil => rfl
  | cons c rest =>
    cases rest with
    | nil =>
      unfold JsonText.fraction
      split <;> simp_all
    | cons d rest =>
      rcases h c rfl with rfl | rfl | rfl <;> rfl

theorem Delimited.exponent (h : Delimited rest) : exponent rest = ([], rest) := by
  cases rest with
  | nil => rfl
  | cons c rest =>
    cases rest with
    | nil => rfl
    | cons d rest =>
      cases rest with
      | nil => rcases h c rfl with rfl | rfl | rfl <;> rfl
      | cons e rest => rcases h c rfl with rfl | rfl | rfl <;> rfl

theorem Delimited.readNumberRest (h : Delimited rest) (negative : Bool) {digits : List Char}
    (hlength : digits.length ≤ maxDigits) :
    readNumberRest negative digits rest =
      .ok (.int (if negative then -(Nat.ofDigitChars 10 digits 0 : ℤ)
        else Nat.ofDigitChars 10 digits 0), rest) := by
  simp only [JsonText.readNumberRest, h.fraction, h.exponent, List.append_nil, if_true, if_pos hlength]

theorem head_toDigits (n : ℕ) : ∃ c digits, Nat.toDigits 10 n = c :: digits ∧
    c.isDigit = true ∧ (c = '0' → n = 0) := by
  induction n using Nat.strongRecOn with
  | ind n ih =>
    by_cases hsmall : n < 10
    · refine ⟨n.digitChar, [], Nat.toDigits_of_lt_base hsmall, ?_⟩
      have hall : ∀ k < 10, (Nat.digitChar k).isDigit = true ∧
          (Nat.digitChar k = '0' → k = 0) := by decide
      exact hall n hsmall
    · obtain ⟨c, digits, hdigits, hdigit, hzero⟩ := ih (n / 10) (by omega)
      refine ⟨c, digits ++ [(n % 10).digitChar], ?_, hdigit, ?_⟩
      · rw [Nat.toDigits_of_base_le (by decide) (by omega), hdigits]
        rfl
      · intro h
        have := hzero h
        omega

theorem Delimited.readDigits (h : Delimited rest) (negative : Bool) {n : ℕ}
    (hlength : (Nat.toDigits 10 n).length ≤ maxDigits) :
    readDigits negative (Nat.toDigits 10 n ++ rest) =
      .ok (.int (if negative then -(n : ℤ) else n), rest) := by
  have hall : ∀ c ∈ Nat.toDigits 10 n, c.isDigit = true := fun c hc =>
    Nat.isDigit_of_mem_toDigits (by decide) (by decide) hc
  have hvalue : Nat.ofDigitChars 10 (Nat.toDigits 10 n) 0 = n := Nat.ofDigitChars_ten_toDigits
  obtain ⟨c, digits, hdigits, hdigit, hzero⟩ := head_toDigits n
  by_cases hc : c = '0'
  · have hn := hzero hc
    subst hn
    have hshort : ['0'].length ≤ maxDigits := by decide
    have hread := h.readNumberRest negative hshort
    have htext : Nat.toDigits 10 0 = ['0'] := by decide
    have hzero : Nat.ofDigitChars 10 ['0'] 0 = 0 := by decide
    rw [hzero] at hread
    rw [htext]
    exact hread
  · rw [hdigits] at hall hvalue hlength ⊢
    obtain ⟨htake, hdrop⟩ := h.takeWhile_append fun d hd => hall d (List.mem_cons_of_mem _ hd)
    have hread := h.readNumberRest negative hlength
    rw [hvalue] at hread
    simp only [List.cons_append, JsonText.readDigits, if_neg hc, if_pos hdigit, htake, hdrop, hread]

end Numbers

section Values

variable (style : Style)

theorem skipSpaces_cons {c : Char} (h : isSpace c = false) (rest : List Char) :
    skipSpaces (c :: rest) = c :: rest := by
  simp [skipSpaces, h]

theorem skipSpaces_pad (rest : List Char) : skipSpaces (style.pad ++ rest) = skipSpaces rest := by
  unfold Style.pad
  split <;> rfl

theorem head_intText (n : ℤ) : ∃ c rest, intText n = c :: rest ∧ (c = '-' ∨ c.isDigit = true) := by
  obtain ⟨c, digits, hdigits, hdigit, -⟩ := head_toDigits n.natAbs
  unfold intText
  split
  · exact ⟨'-', _, rfl, .inl rfl⟩
  · exact ⟨c, digits, hdigits, .inr hdigit⟩

/-- A value does not start like a space or the end of a list. -/
theorem head_text {value : Json} (h : WellFormed value) :
    ∃ c rest, text style value = c :: rest ∧ isSpace c = false ∧ c ≠ ']' := by
  cases value with
  | null => exact ⟨_, _, rfl, by decide, by decide⟩
  | bool b => cases b <;> exact ⟨_, _, rfl, by decide, by decide⟩
  | int n =>
    obtain ⟨c, rest, htext, hc⟩ := head_intText n
    refine ⟨c, rest, htext, ?_, ?_⟩
    · rcases hc with rfl | hdigit
      · decide
      · by_contra hspace
        simp only [isSpace, Bool.or_eq_true, decide_eq_true_eq, Bool.not_eq_false] at hspace
        rcases hspace with ((rfl | rfl) | rfl) | rfl <;> revert hdigit <;> decide
    · rintro rfl
      rcases hc with h | h <;> revert h <;> decide
  | float written => cases h
  | str s => exact ⟨_, _, rfl, by decide, by decide⟩
  | arr items => exact ⟨_, _, rfl, by decide, by decide⟩
  | obj members => exact ⟨_, _, rfl, by decide, by decide⟩

theorem skipSpaces_text {value : Json} (h : WellFormed value) (rest : List Char) :
    skipSpaces (text style value ++ rest) = text style value ++ rest := by
  obtain ⟨c, cs, htext, hspace, -⟩ := head_text style h
  rw [htext, List.cons_append, skipSpaces_cons hspace]

theorem readScalar_intText {n : ℤ} (hlength : (Nat.toDigits 10 n.natAbs).length ≤ maxDigits)
    {rest : List Char} (hrest : Delimited rest) (fuel : ℕ) :
    readValue (fuel + 1) (intText n ++ rest) = .ok (.int n, rest) := by
  obtain ⟨c, digits, hdigits, hdigit, -⟩ := head_toDigits n.natAbs
  unfold intText
  have hne : ∀ d, c = d → d.isDigit = true := fun d h => h ▸ hdigit
  by_cases hneg : n < 0
  · have hread := hrest.readDigits true hlength
    have hvalue : -(n.natAbs : ℤ) = n := by omega
    simp only [if_true, hvalue] at hread
    have hnot : ['I'].isPrefixOf (Nat.toDigits 10 n.natAbs ++ rest) = false := by
      rw [hdigits]
      simp only [List.cons_append, List.isPrefixOf, Bool.and_true, beq_eq_false_iff_ne]
      intro h
      exact absurd (hne 'I' h.symm) (by decide)
    rw [if_pos hneg]
    simp only [List.cons_append, readValue, readScalar, hnot, hread]
    rfl
  · have hread := hrest.readDigits false hlength
    have hvalue : (n.natAbs : ℤ) = n := by omega
    simp only [hvalue] at hread
    rw [if_neg hneg]
    rw [hdigits] at hread ⊢
    have hnot : ∀ d : Char, d.isDigit = false → ¬ c = d := by
      intro d hd hcd
      rw [hne d hcd] at hd
      cases hd
    simp only [List.cons_append, readValue, readScalar, if_neg (hnot '"' rfl), if_neg (hnot '[' rfl),
      if_neg (hnot '{' rfl), if_neg (hnot 'n' rfl), if_neg (hnot 't' rfl), if_neg (hnot 'f' rfl),
      if_neg (hnot 'N' rfl), if_neg (hnot 'I' rfl), if_neg (hnot '-' rfl)]
    exact hread

theorem foldl_insertMember (members first : List (String × Json))
    (h : ((first ++ members).map Prod.fst).Nodup) :
    members.foldl insertMember first = first ++ members := by
  induction members generalizing first with
  | nil => simp
  | cons member rest ih =>
    have hnew : first.any (fun other => decide (other.1 = member.1)) = false := by
      rw [List.any_eq_false]
      intro other hother
      rw [List.map_append, List.nodup_append] at h
      have hne := h.2.2 other.1 (List.mem_map_of_mem hother) member.1 (by simp)
      simpa using hne
    have hinsert : insertMember first member = first ++ [member] := by
      simp [insertMember, hnew]
    rw [List.foldl_cons, hinsert, ih (first ++ [member]) (by simpa using h)]
    simp

theorem objectOf_eq {members : List (String × Json)} (h : (members.map Prod.fst).Nodup) :
    objectOf members = .obj members := by
  rw [objectOf, foldl_insertMember members [] (by simpa using h), List.nil_append]

theorem moreItemsText_cons (item : Json) (rest : List Json) :
    moreItemsText style (item :: rest) = style.separator ',' ++ itemsText style (item :: rest) := by
  simp [moreItemsText, itemsText]

theorem moreMembersText_cons (member : String × Json) (rest : List (String × Json)) :
    moreMembersText style (member :: rest) =
      style.separator ',' ++ membersText style (member :: rest) := by
  simp [moreMembersText, membersText]

mutual

/-- The text of a value, followed by nothing or a separator, is read as the value. -/
theorem readValue_text : ∀ (value : Json), WellFormed value → printable value = true →
    ∀ (fuel : ℕ) (rest : List Char), (text style value).length ≤ fuel → Delimited rest →
      readValue (fuel + 1) (text style value ++ rest) = .ok (value, rest)
  | .null, _, _, _, _, _, _ => rfl
  | .bool true, _, _, _, _, _, _ => rfl
  | .bool false, _, _, _, _, _, _ => rfl
  | .int n, _, hp, fuel, rest, _, hrest =>
    readScalar_intText (by simpa [printable] using hp) hrest fuel
  | .float _, h, _, _, _, _, _ => absurd h id
  | .str s, _, _, fuel, rest, _, _ => by
    have hread := readString_text style.ensureAscii s rest
    simp only [text, stringText, List.cons_append, readValue, List.tail_cons] at hread ⊢
    rw [if_pos trivial, hread]
    rfl
  | .arr [], _, _, _, _, _, _ => rfl
  | .arr (item :: items), h, hp, fuel, rest, hfuel, _ => by
    have hlength : (itemsText style (item :: items)).length + 1 ≤ fuel := by
      simpa [text] using hfuel
    obtain ⟨fuel, rfl⟩ := Nat.exists_eq_succ_of_ne_zero (by omega : fuel ≠ 0)
    have hread := readItems_text (item :: items) (by simp) h hp fuel rest (by omega)
    obtain ⟨c, cs, htext, hspace, hend⟩ := head_text style h.1
    have hhead : itemsText style (item :: items) ++ rest =
        c :: (cs ++ moreItemsText style items ++ rest) := by
      simp [itemsText, htext]
    rw [hhead] at hread
    have hnot : ¬ (c :: (cs ++ moreItemsText style items ++ rest)).head? = some ']' := by
      simpa using hend
    rw [text, List.cons_append, hhead]
    simp only [readValue, skipSpaces_cons hspace, if_neg hnot, hread]
    rfl
  | .obj [], _, _, _, _, _, _ => rfl
  | .obj ((key, value) :: members), h, hp, fuel, rest, hfuel, _ => by
    have hlength : (membersText style ((key, value) :: members)).length + 1 ≤ fuel := by
      simpa [text] using hfuel
    obtain ⟨fuel, rfl⟩ := Nat.exists_eq_succ_of_ne_zero (by omega : fuel ≠ 0)
    have hread := readMembers_text ((key, value) :: members) (by simp) h.2 hp fuel rest (by omega)
    have hhead : membersText style ((key, value) :: members) ++ rest =
        '"' :: (membersText style ((key, value) :: members) ++ rest).tail := by
      simp [membersText, stringText]
    have hspaces : skipSpaces (membersText style ((key, value) :: members) ++ rest) =
        membersText style ((key, value) :: members) ++ rest := by
      rw [hhead, skipSpaces_cons (by decide)]
    have hnot : ¬ (membersText style ((key, value) :: members) ++ rest).head? = some '}' := by
      rw [hhead]
      simp
    rw [text, List.cons_append]
    simp only [readValue, hspaces, if_neg hnot, hread]
    show Except.ok (objectOf ((key, value) :: members), rest) = _
    rw [objectOf_eq h.1]

theorem readItems_text : ∀ (items : List Json), items ≠ [] → ItemsWellFormed items →
    printableItems items = true → ∀ (fuel : ℕ) (rest : List Char),
      (itemsText style items).length ≤ fuel →
      readItems (fuel + 1) (itemsText style items ++ rest) = .ok (items, rest)
  | [], hne, _, _, _, _, _ => absurd rfl hne
  | item :: items, _, h, hp, fuel, rest, hfuel => by
    have hpair : printable item = true ∧ printableItems items = true := by
      simpa [printableItems] using hp
    rw [itemsText, List.length_append] at hfuel
    cases items with
    | nil =>
      simp only [moreItemsText, List.length_singleton] at hfuel
      obtain ⟨fuel, rfl⟩ := Nat.exists_eq_succ_of_ne_zero (by omega : fuel ≠ 0)
      have hread := readValue_text item h.1 hpair.1 fuel (']' :: rest) (by omega)
        (.cons (by simp))
      have hitems : itemsText style [item] ++ rest = text style item ++ ']' :: rest := by
        simp [itemsText, moreItemsText]
      rw [hitems, readItems, hread]
      rfl
    | cons next items =>
      rw [moreItemsText_cons, List.length_append, Style.separator, List.length_cons] at hfuel
      obtain ⟨fuel, rfl⟩ := Nat.exists_eq_succ_of_ne_zero (by omega : fuel ≠ 0)
      have hread := readValue_text item h.1 hpair.1 fuel
        (style.separator ',' ++ itemsText style (next :: items) ++ rest) (by omega)
        (.cons (by simp))
      have hrest := readItems_text (next :: items) (by simp) h.2 hpair.2 fuel rest (by omega)
      have hitems : itemsText style (item :: next :: items) ++ rest =
          text style item ++ (style.separator ',' ++ itemsText style (next :: items) ++ rest) := by
        rw [itemsText, moreItemsText_cons, List.append_assoc]
      have hspaces : skipSpaces (style.pad ++ (itemsText style (next :: items) ++ rest)) =
          itemsText style (next :: items) ++ rest := by
        rw [skipSpaces_pad, itemsText, List.append_assoc, skipSpaces_text style h.2.1]
      rw [hitems, readItems, hread]
      simp only [bind, Except.bind, Style.separator, List.cons_append, List.append_assoc,
        skipSpaces_cons (show isSpace ',' = false by decide), hspaces, hrest]
      rfl

theorem readMembers_text : ∀ (members : List (String × Json)), members ≠ [] →
    MembersWellFormed members → printableMembers members = true →
    ∀ (fuel : ℕ) (rest : List Char), (membersText style members).length ≤ fuel →
      readMembers (fuel + 1) (membersText style members ++ rest) = .ok (members, rest)
  | [], hne, _, _, _, _, _ => absurd rfl hne
  | (key, value) :: members, _, h, hp, fuel, rest, hfuel => by
    have hpair : printable value = true ∧ printableMembers members = true := by
      simpa [printableMembers] using hp
    rw [membersText] at hfuel
    simp only [List.length_append] at hfuel
    have hkey := readString_text style.ensureAscii key
    have hquote : stringText style.ensureAscii key =
        '"' :: (stringText style.ensureAscii key).tail := rfl
    have hvalue : ∀ more, skipSpaces (style.pad ++ (text style value ++ more)) =
        text style value ++ more := by
      intro more
      rw [skipSpaces_pad, skipSpaces_text style h.1]
    cases members with
    | nil =>
      simp only [moreMembersText, List.length_singleton] at hfuel
      obtain ⟨fuel, rfl⟩ := Nat.exists_eq_succ_of_ne_zero (by omega : fuel ≠ 0)
      have hread := readValue_text value h.1 hpair.1 fuel ('}' :: rest) (by omega)
        (.cons (by simp))
      have hmembers : membersText style [(key, value)] ++ rest =
          '"' :: ((stringText style.ensureAscii key).tail ++
            ':' :: (style.pad ++ (text style value ++ '}' :: rest))) := by
        rw [membersText, hquote]
        simp [moreMembersText, Style.separator]
      rw [hmembers, readMembers]
      simp only [hkey, bind, Except.bind, skipSpaces_cons (show isSpace ':' = false by decide),
        hvalue, hread, skipSpaces_cons (show isSpace '}' = false by decide)]
      rfl
    | cons next members =>
      rw [moreMembersText_cons, List.length_append, Style.separator, List.length_cons] at hfuel
      obtain ⟨fuel, rfl⟩ := Nat.exists_eq_succ_of_ne_zero (by omega : fuel ≠ 0)
      have hread := readValue_text value h.1 hpair.1 fuel
        (',' :: (style.pad ++ (membersText style (next :: members) ++ rest))) (by omega)
        (.cons (by simp))
      have hrest := readMembers_text (next :: members) (by simp) h.2 hpair.2 fuel rest (by omega)
      have hmembers : membersText style ((key, value) :: next :: members) ++ rest =
          '"' :: ((stringText style.ensureAscii key).tail ++
            ':' :: (style.pad ++ (text style value ++
              ',' :: (style.pad ++ (membersText style (next :: members) ++ rest))))) := by
        rw [membersText, moreMembersText_cons, hquote]
        simp [Style.separator]
      have hspaces : skipSpaces (style.pad ++ (membersText style (next :: members) ++ rest)) =
          membersText style (next :: members) ++ rest := by
        have hhead : membersText style (next :: members) ++ rest =
            '"' :: (membersText style (next :: members) ++ rest).tail := by
          simp [membersText, stringText]
        rw [skipSpaces_pad, hhead, skipSpaces_cons (by decide)]
      rw [hmembers, readMembers]
      simp only [hkey, bind, Except.bind, skipSpaces_cons (show isSpace ':' = false by decide),
        hvalue, hread, skipSpaces_cons (show isSpace ',' = false by decide), hspaces, hrest]
      rfl

end

theorem loads_text {value : Json} (h : WellFormed value) (hp : printable value = true) :
    loads (String.ofList (text style value)) = .ok value := by
  have hread := readValue_text style value h hp (text style value).length [] le_rfl .nil
  have hspaces := skipSpaces_text style h []
  rw [List.append_nil] at hread hspaces
  simp only [loads, String.toList_ofList, hspaces, hread]
  rfl

/-- What is written is read back. -/
theorem loads_of_dumps {value : Json} {written : String} (h : WellFormed value)
    (hdumps : dumps style value = .ok written) : loads written = .ok value := by
  unfold dumps at hdumps
  by_cases hp : printable value = true
  · rw [if_pos hp, Except.ok.injEq] at hdumps
    rw [← hdumps]
    exact loads_text style h hp
  · rw [if_neg hp] at hdumps
    cases hdumps

end Values

end JsonText
