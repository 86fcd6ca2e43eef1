import Dander.JsonText

/-!
# How accepted texts end

Every value that is read ends with a quote, a bracket, a digit or a letter, so a text that was cut
off and marked with dots is not accepted.
-/
namespace JsonText

section Consuming

/-- What is read ends with a character other than a dot. -/
def Consumes (input rest : List Char) : Prop :=
  ∃ taken c, input = taken ++ c :: rest ∧ c ≠ '.'

variable {input rest middle : List Char} {c : Char}

theorem Consumes.single (h : c ≠ '.') : Consumes (c :: rest) rest := ⟨[], c, rfl, h⟩

theorem Consumes.append (h : Consumes input rest) (taken : List Char) :
    Consumes (taken ++ input) rest := by
  obtain ⟨first, c, rfl, hc⟩ := h
  exact ⟨taken ++ first, c, by simp, hc⟩

theorem Consumes.cons (h : Consumes input rest) (c : Char) : Consumes (c :: input) rest :=
  h.append [c]

theorem Consumes.trans (h : Consumes input middle) (h' : Consumes middle rest) :
    Consumes input rest := by
  obtain ⟨taken, c, rfl, -⟩ := h
  exact (h'.cons c).append taken

theorem Consumes.skip (h : Consumes (skipSpaces input) rest) : Consumes input rest := by
  have hsplit : input.takeWhile isSpace ++ skipSpaces input = input :=
    List.takeWhile_append_dropWhile
  rw [← hsplit]
  exact h.append _

theorem ne_dot_of_isDigit (h : c.isDigit = true) : c ≠ '.' := by
  rintro rfl
  simp at h

theorem consumes_digits (h : c.isDigit = true) (rest : List Char) :
    Consumes (c :: rest) (rest.dropWhile Char.isDigit) := by
  induction rest generalizing c with
  | nil => exact .single (ne_dot_of_isDigit h)
  | cons d rest ih =>
    by_cases hd : d.isDigit = true
    · rw [List.dropWhile_cons_of_pos hd]
      exact (ih hd).cons c
    · rw [List.dropWhile_cons_of_neg hd]
      exact .single (ne_dot_of_isDigit h)

theorem fraction_consumes (rest : List Char) :
    (fraction rest).2 = rest ∨ Consumes rest (fraction rest).2 := by
  unfold fraction
  split
  next c rest =>
    by_cases hc : c.isDigit = true
    · rw [if_pos hc]
      exact .inr ((consumes_digits hc rest).cons '.')
    · rw [if_neg hc]
      exact .inl rfl
  · exact .inl rfl

theorem exponent_consumes (rest : List Char) :
    (exponent rest).2 = rest ∨ Consumes rest (exponent rest).2 := by
  unfold exponent
  split
  next e c rest =>
    by_cases hc : (isExponent e && c.isDigit) = true
    · rw [if_pos hc]
      simp only [Bool.and_eq_true] at hc
      exact .inr ((consumes_digits hc.2 rest).cons e)
    · rw [if_neg hc]
      split
      next d rest =>
        by_cases hd : (isExponent e && isSign c && d.isDigit) = true
        · rw [if_pos hd]
          simp only [Bool.and_eq_true] at hd
          exact .inr (((consumes_digits hd.2 rest).cons c).cons e)
        · rw [if_neg hd]
          exact .inl rfl
      · exact .inl rfl
  · exact .inl rfl

theorem readNumberRest_consumes {negative : Bool} {digits : List Char} {value : Json}
    (h : readNumberRest negative digits middle = .ok (value, rest))
    (hread : Consumes input middle) : Consumes input rest := by
  have hrest : rest = (exponent (fraction middle).2).2 := by
    unfold readNumberRest at h
    dsimp only at h
    split at h
    · split at h
      · cases h
        rfl
      · cases h
    · cases h
      rfl
  rw [hrest]
  have hfraction : Consumes input (fraction middle).2 := by
    rcases fraction_consumes middle with hsame | hmore
    · rw [hsame]
      exact hread
    · exact hread.trans hmore
  rcases exponent_consumes (fraction middle).2 with hsame | hmore
  · rw [hsame]
    exact hfraction
  · exact hfraction.trans hmore

theorem readDigits_consumes {negative : Bool} {value : Json}
    (h : readDigits negative input = .ok (value, rest)) : Consumes input rest := by
  cases input with
  | nil => cases h
  | cons c input =>
    simp only [readDigits] at h
    by_cases hzero : c = '0'
    · rw [if_pos hzero] at h
      exact readNumberRest_consumes h (.single (by rw [hzero]; decide))
    · rw [if_neg hzero] at h
      by_cases hc : c.isDigit = true
      · rw [if_pos hc] at h
        exact readNumberRest_consumes h (consumes_digits hc input)
      · rw [if_neg hc] at h
        cases h

theorem readLiteral_consumes (expected : List Char) {value found : Json} {last : Char}
    (h : readLiteral (expected ++ [last]) value input = .ok (found, rest)) (hlast : last ≠ '.') :
    Consumes input rest := by
  unfold readLiteral at h
  split at h
  next hstart =>
    cases h
    obtain ⟨after, rfl⟩ := List.isPrefixOf_iff_prefix.mp hstart
    refine ⟨expected, last, ?_, hlast⟩
    simp
  · cases h

theorem readScalar_consumes {value : Json} (h : readScalar c input = .ok (value, rest)) :
    Consumes (c :: input) rest := by
  unfold readScalar at h
  split at h
  · exact (readLiteral_consumes ['u', 'l'] h (by decide)).cons c
  · split at h
    · exact (readLiteral_consumes ['r', 'u'] h (by decide)).cons c
    · split at h
      · exact (readLiteral_consumes ['a', 'l', 's'] h (by decide)).cons c
      · split at h
        · exact (readLiteral_consumes ['a'] h (by decide)).cons c
        · split at h
          · exact (readLiteral_consumes ['n', 'f', 'i', 'n', 'i', 't'] h (by decide)).cons c
          · split at h
            · split at h
              · exact (readLiteral_consumes ['I', 'n', 'f', 'i', 'n', 'i', 't'] h
                  (by decide)).cons c
              · exact (readDigits_consumes h).cons c
            · exact readDigits_consumes h

theorem readHex4_suffix {n : ℕ} (h : readHex4 input = .ok (n, rest)) : rest <:+ input := by
  unfold readHex4 at h
  split at h
  next a b c d after =>
    split at h
    · cases h
      exact ⟨[a, b, c, d], rfl⟩
    · cases h
  · cases h

theorem readLowSurrogate_suffix {high : ℕ} {found : Option Char}
    (h : readLowSurrogate high input = .ok (found, rest)) :
    found.isSome = true ∧ rest <:+ input := by
  unfold readLowSurrogate at h
  split at h
  next after =>
    cases hread : readHex4 after with
    | error e => simp [hread, bind, Except.bind] at h
    | ok read =>
      obtain ⟨low, left⟩ := read
      simp only [hread, bind, Except.bind] at h
      split at h
      · cases h
        have hsuffix := readHex4_suffix hread
        exact ⟨rfl, hsuffix.trans ⟨['\\', 'u'], rfl⟩⟩
      · cases h
  · cases h

theorem readUnicode_suffix {found : Option Char} (h : readUnicode input = .ok (found, rest)) :
    found.isSome = true ∧ rest <:+ input := by
  unfold readUnicode at h
  cases hread : readHex4 input with
  | error e => simp [hread, bind, Except.bind] at h
  | ok read =>
    obtain ⟨n, left⟩ := read
    have hsuffix := readHex4_suffix hread
    simp only [hread, bind, Except.bind] at h
    split at h
    · obtain ⟨hfound, hrest⟩ := readLowSurrogate_suffix h
      exact ⟨hfound, hrest.trans hsuffix⟩
    · split at h
      · cases h
      · cases h
        exact ⟨rfl, hsuffix⟩

theorem readEscape_suffix {found : Option Char} (h : readEscape input = .ok (found, rest)) :
    found.isSome = true ∧ rest <:+ input := by
  unfold readEscape at h
  split at h
  case h_9 =>
    obtain ⟨hfound, hrest⟩ := readUnicode_suffix h
    exact ⟨hfound, hrest.trans (List.suffix_cons _ _)⟩
  case h_10 => cases h
  all_goals
    cases h
    exact ⟨rfl, List.suffix_cons _ _⟩

/-- A string ends with a quote. -/
theorem readChar_end (h : readChar input = .ok (none, rest)) : input = '"' :: rest := by
  cases input with
  | nil => cases h
  | cons c input =>
    simp only [readChar] at h
    by_cases hquote : c = '"'
    · rw [if_pos hquote] at h
      cases h
      rw [hquote]
    · rw [if_neg hquote] at h
      split at h
      · have hfound := (readEscape_suffix h).1
        cases hfound
      · split at h <;> cases h

theorem readChar_suffix {found : Option Char} (h : readChar input = .ok (found, rest)) :
    rest <:+ input := by
  cases input with
  | nil => cases h
  | cons c input =>
    simp only [readChar] at h
    split at h
    · cases h
      exact List.suffix_cons _ _
    · split at h
      · exact (readEscape_suffix h).2.trans (List.suffix_cons _ _)
      · split at h
        · cases h
        · cases h
          exact List.suffix_cons _ _

theorem readChars_consumes (fuel : ℕ) {chars : List Char}
    (h : readChars fuel input = .ok (chars, rest)) : Consumes input rest := by
  induction fuel generalizing input chars with
  | zero => cases h
  | succ fuel ih =>
    unfold readChars at h
    cases hread : readChar input with
    | error e => simp [hread, bind, Except.bind] at h
    | ok read =>
      obtain ⟨found, left⟩ := read
      simp only [hread, bind, Except.bind] at h
      cases found with
      | none =>
        cases h
        rw [readChar_end hread]
        exact .single (by decide)
      | some c =>
        obtain ⟨taken, hsplit⟩ := readChar_suffix hread
        cases hmore : readChars fuel left with
        | error e => simp [hmore] at h
        | ok more =>
          simp only [hmore] at h
          cases h
          rw [← hsplit]
          exact (ih hmore).append taken

theorem readString_consumes {value : String} (h : readString input = .ok (value, rest)) :
    Consumes input rest := by
  unfold readString at h
  cases hread : readChars (input.length + 1) input with
  | error e => simp [hread, bind, Except.bind] at h
  | ok read =>
    simp only [hread, bind, Except.bind] at h
    cases h
    exact readChars_consumes _ hread

theorem skipSpaces_head {d : Char} (h : (skipSpaces input).head? = some d) :
    skipSpaces input = d :: (skipSpaces input).tail := by
  cases hrest : skipSpaces input with
  | nil => simp [hrest] at h
  | cons e rest =>
    simp only [hrest, List.head?_cons, Option.some.injEq] at h
    rw [h, List.tail_cons]

/-- What each of the three readers takes. -/
structure ReadersConsume (fuel : ℕ) : Prop where
  value : ∀ input value rest, readValue fuel input = .ok (value, rest) → Consumes input rest
  items : ∀ input items rest, readItems fuel input = .ok (items, rest) → Consumes input rest
  members : ∀ input members rest, readMembers fuel input = .ok (members, rest) →
    Consumes input rest

theorem readValue_consumes_step {fuel : ℕ} (ih : ReadersConsume fuel) {value : Json}
    (h : readValue (fuel + 1) input = .ok (value, rest)) : Consumes input rest := by
  cases input with
  | nil => cases h
  | cons c input =>
    simp only [readValue] at h
    split at h
    · cases hread : readString input with
      | error e => simp [hread, bind, Except.bind] at h
      | ok read =>
        simp only [hread, bind, Except.bind] at h
        cases h
        exact (readString_consumes hread).cons c
    · split at h
      · split at h
        next hclose =>
          cases h
          have hskip : Consumes (skipSpaces input) (skipSpaces input).tail := by
            rw [skipSpaces_head hclose]
            exact .single (by decide)
          exact hskip.skip.cons c
        · cases hread : readItems fuel (skipSpaces input) with
          | error e => simp [hread, bind, Except.bind] at h
          | ok read =>
            simp only [hread, bind, Except.bind] at h
            cases h
            exact (ih.items _ _ _ hread).skip.cons c
      · split at h
        · split at h
          next hclose =>
            cases h
            have hskip : Consumes (skipSpaces input) (skipSpaces input).tail := by
              rw [skipSpaces_head hclose]
              exact .single (by decide)
            exact hskip.skip.cons c
          · cases hread : readMembers fuel (skipSpaces input) with
            | error e => simp [hread, bind, Except.bind] at h
            | ok read =>
              simp only [hread, bind, Except.bind] at h
              cases h
              exact (ih.members _ _ _ hread).skip.cons c
        · exact readScalar_consumes h

theorem readItems_consumes_step {fuel : ℕ} (ih : ReadersConsume fuel) {items : List Json}
    (h : readItems (fuel + 1) input = .ok (items, rest)) : Consumes input rest := by
  simp only [readItems] at h
  cases hread : readValue fuel input with
  | error e => simp [hread, bind, Except.bind] at h
  | ok read =>
    have hfirst := ih.value _ _ _ hread
    simp only [hread, bind, Except.bind] at h
    split at h
    next after hclose =>
      cases h
      have hlast : Consumes (skipSpaces read.2) rest := by
        rw [hclose]
        exact .single (by decide)
      exact hfirst.trans hlast.skip
    next after hcomma =>
      cases hmore : readItems fuel (skipSpaces after) with
      | error e => simp [hmore] at h
      | ok more =>
        simp only [hmore] at h
        cases h
        have hlast : Consumes (skipSpaces read.2) more.2 := by
          rw [hcomma]
          exact (ih.items _ _ _ hmore).skip.cons ','
        exact hfirst.trans hlast.skip
    · cases h

theorem readMembers_consumes_step {fuel : ℕ} (ih : ReadersConsume fuel)
    {members : List (String × Json)}
    (h : readMembers (fuel + 1) input = .ok (members, rest)) : Consumes input rest := by
  simp only [readMembers] at h
  split at h
  next after =>
    cases hkey : readString after with
    | error e => simp [hkey, bind, Except.bind] at h
    | ok key =>
      have hfirst := (readString_consumes hkey).cons '"'
      simp only [hkey, bind, Except.bind] at h
      split at h
      next afterColon hcolon =>
        cases hread : readValue fuel (skipSpaces afterColon) with
        | error e => simp [hread] at h
        | ok read =>
          simp only [hread] at h
          have hvalue : Consumes (skipSpaces key.2) read.2 := by
            rw [hcolon]
            exact (ih.value _ _ _ hread).skip.cons ':'
          have hmember := hfirst.trans hvalue.skip
          split at h
          next afterMember hclose =>
            cases h
            have hlast : Consumes (skipSpaces read.2) rest := by
              rw [hclose]
              exact .single (by decide)
            exact hmember.trans hlast.skip
          next afterMember hcomma =>
            cases hmore : readMembers fuel (skipSpaces afterMember) with
            | error e => simp [hmore] at h
            | ok more =>
              simp only [hmore] at h
              cases h
              have hlast : Consumes (skipSpaces read.2) more.2 := by
                rw [hcomma]
                exact (ih.members _ _ _ hmore).skip.cons ','
              exact hmember.trans hlast.skip
          · cases h
      · cases h
  · cases h

theorem readersConsume (fuel : ℕ) : ReadersConsume fuel := by
  induction fuel with
  | zero =>
    constructor
    · intro input value rest h
      cases h
    · intro input items rest h
      cases h
    · intro input members rest h
      cases h
  | succ fuel ih =>
    constructor
    · intro input value rest h
      exact readValue_consumes_step ih h
    · intro input items rest h
      exact readItems_consumes_step ih h
    · intro input members rest h
      exact readMembers_consumes_step ih h

/-- A text that ends with a dot is not accepted. -/
theorem loads_ends {input : String} {value : Json} (h : loads input = .ok value) (cut : List Char) :
    input.toList ≠ cut ++ ['.'] := by
  intro hcut
  unfold loads at h
  cases hread : readValue (input.toList.length + 1) (skipSpaces input.toList) with
  | error e => simp [hread, bind, Except.bind] at h
  | ok read =>
    obtain ⟨taken, c, hsplit, hc⟩ := ((readersConsume _).value _ _ _ hread).skip
    simp only [hread, bind, Except.bind] at h
    split at h
    next hspaces =>
      have hall : ∀ d ∈ read.2, isSpace d = true := List.dropWhile_eq_nil_iff.mp hspaces
      rw [hcut] at hsplit
      rcases List.eq_nil_or_concat read.2 with hnil | ⟨first, last, hlast⟩
      · rw [hnil] at hsplit
        have hsame := (List.append_inj' hsplit rfl).2
        simp only [List.cons.injEq, and_true] at hsame
        exact hc hsame.symm
      · rw [hlast, List.concat_eq_append, ← List.cons_append, ← List.append_assoc] at hsplit
        have hsame := (List.append_inj' hsplit rfl).2
        simp only [List.cons.injEq, and_true] at hsame
        have hspace := hall last (by rw [hlast]; simp)
        rw [← hsame] at hspace
        revert hspace
        decide
    · cases h

end Consuming

end JsonText
