import Mathlib

/-!
# Percent encoding

Octets as text: unreserved characters stand for themselves, and other octets for a percent sign
with two hexadecimal digits. The reader of UTF-8 puts a replacement character in the place of each
ill-formed sequence. A text splits in one way at a separator.
-/
namespace PercentText

section Digits

/-- The hexadecimal digits in upper case. -/
def hexDigit (n : ℕ) : Char := if n < 10 then Char.ofNat (48 + n) else Char.ofNat (55 + n)

def hexValue (c : Char) : Option ℕ :=
  if 48 ≤ c.toNat ∧ c.toNat ≤ 57 then some (c.toNat - 48)
  else if 65 ≤ c.toNat ∧ c.toNat ≤ 70 then some (c.toNat - 55)
  else if 97 ≤ c.toNat ∧ c.toNat ≤ 102 then some (c.toNat - 87)
  else none

theorem hexValue_hexDigit {n : ℕ} (h : n < 16) : hexValue (hexDigit n) = some n := by
  revert n
  decide

/-- The letters, the digits, and `-`, `.`, `_` and `~`. -/
def isUnreserved (n : ℕ) : Bool :=
  (65 ≤ n && n ≤ 90) || (97 ≤ n && n ≤ 122) || (48 ≤ n && n ≤ 57) || n == 45 || n == 46 ||
    n == 95 || n == 126

end Digits

section Encoding

def encodeOctet (octet : UInt8) : List Char :=
  if isUnreserved octet.toNat then [Char.ofNat octet.toNat]
  else ['%', hexDigit (octet.toNat / 16), hexDigit (octet.toNat % 16)]

def encode (octets : List UInt8) : List Char := octets.flatMap encodeOctet

/-- A percent sign that two hexadecimal digits do not follow stands for itself. -/
def decode : List Char → List UInt8
  | '%' :: high :: low :: rest =>
    match hexValue high, hexValue low with
    | some h, some l => UInt8.ofNat (16 * h + l) :: decode rest
    | _, _ => UInt8.ofNat '%'.toNat :: decode (high :: low :: rest)
  | c :: rest => UInt8.ofNat c.toNat :: decode rest
  | [] => []

theorem toNat_ofNat {n : ℕ} (h : n < 128) : (Char.ofNat n).toNat = n := by
  have hvalid : n.isValidChar := Or.inl (by omega)
  simp [Char.ofNat, hvalid, Char.toNat, Char.ofNatAux]

theorem isUnreserved_lt {n : ℕ} (h : isUnreserved n = true) : n < 128 ∧ n ≠ 37 := by
  simp only [isUnreserved, Bool.or_eq_true, Bool.and_eq_true, decide_eq_true_eq,
    beq_iff_eq] at h
  omega

theorem decode_plain {c : Char} (h : c ≠ '%') (rest : List Char) :
    decode (c :: rest) = UInt8.ofNat c.toNat :: decode rest := by
  rw [decode]
  intro high low tail heq
  exact absurd heq h

theorem decode_escape {high low : Char} {h l : ℕ} (hhigh : hexValue high = some h)
    (hlow : hexValue low = some l) (rest : List Char) :
    decode ('%' :: high :: low :: rest) = UInt8.ofNat (16 * h + l) :: decode rest := by
  rw [decode, hhigh, hlow]

theorem decode_encodeOctet (octet : UInt8) (rest : List Char) :
    decode (encodeOctet octet ++ rest) = octet :: decode rest := by
  have hlt := octet.toNat_lt
  unfold encodeOctet
  split
  next hunreserved =>
    obtain ⟨hascii, hpercent⟩ := isUnreserved_lt hunreserved
    have hnat := toNat_ofNat hascii
    have hne : Char.ofNat octet.toNat ≠ '%' := by
      intro heq
      rw [heq] at hnat
      exact hpercent hnat.symm
    rw [List.singleton_append, decode_plain hne, hnat]
    simp
  next =>
    have hvalue : 16 * (octet.toNat / 16) + octet.toNat % 16 = octet.toNat := Nat.div_add_mod _ _
    rw [List.cons_append, List.cons_append, List.singleton_append,
      decode_escape (hexValue_hexDigit (by omega)) (hexValue_hexDigit (by omega)), hvalue]
    simp

theorem decode_encode (octets : List UInt8) : decode (encode octets) = octets := by
  induction octets with
  | nil => rfl
  | cons octet rest ih =>
    rw [encode, List.flatMap_cons, decode_encodeOctet]
    exact congrArg _ ih

theorem encode_injective : Function.Injective encode := by
  intro first second h
  rw [← decode_encode first, h, decode_encode]

/-- What an encoded text is made of. -/
theorem mem_encode {octets : List UInt8} {c : Char} (h : c ∈ encode octets) :
    isUnreserved c.toNat = true ∨ c = '%' := by
  obtain ⟨octet, -, hc⟩ := List.mem_flatMap.mp h
  have hlt := octet.toNat_lt
  have hdigit : ∀ n < 16, isUnreserved (hexDigit n).toNat = true := by decide
  unfold encodeOctet at hc
  split at hc
  next hunreserved =>
    obtain rfl := List.mem_singleton.mp hc
    rw [toNat_ofNat (isUnreserved_lt hunreserved).1]
    exact .inl hunreserved
  next =>
    simp only [List.mem_cons, List.not_mem_nil, or_false] at hc
    rcases hc with rfl | rfl | rfl
    · exact .inr rfl
    · exact .inl (hdigit _ (by omega))
    · exact .inl (hdigit _ (by omega))

theorem not_mem_encode {c : Char} (hreserved : isUnreserved c.toNat = false) (hc : c ≠ '%')
    (octets : List UInt8) : c ∉ encode octets := by
  intro h
  rcases mem_encode h with h | h
  · rw [hreserved] at h
    cases h
  · exact hc h

end Encoding

section Escapes

/-- Every percent sign is followed by two hexadecimal digits. -/
def wellEscaped : List Char → Bool
  | '%' :: high :: low :: rest =>
    (hexValue high).isSome && (hexValue low).isSome && wellEscaped rest
  | '%' :: _ => false
  | _ :: rest => wellEscaped rest
  | [] => true

theorem length_decode_le (text : List Char) : (decode text).length ≤ text.length := by
  induction text using decode.induct with
  | case1 high low rest h l hhigh hlow ih =>
    rw [decode_escape hlow hhigh, List.length_cons]
    simp only [List.length_cons]
    omega
  | case2 high low rest hnot ih =>
    rw [decode]
    split
    next h l hhigh hlow => exact absurd hlow (hnot h l hhigh)
    next =>
      simp only [List.length_cons] at ih ⊢
      omega
  | case3 c rest hnot ih =>
    rw [decode]
    · simpa using ih
    · exact hnot
  | case4 => exact le_rfl

/-- Decoding shortens a text with an escape. -/
theorem length_decode_lt {text : List Char} (hwell : wellEscaped text = true)
    (hmem : '%' ∈ text) : (decode text).length < text.length := by
  induction text using wellEscaped.induct with
  | case1 high low rest ih =>
    simp only [wellEscaped, Bool.and_eq_true, Option.isSome_iff_exists] at hwell
    obtain ⟨⟨⟨h, hhigh⟩, ⟨l, hlow⟩⟩, -⟩ := hwell
    have hle := length_decode_le rest
    rw [decode_escape hhigh hlow]
    simp only [List.length_cons]
    omega
  | case2 rest hnot =>
    rw [wellEscaped] at hwell
    · cases hwell
    · exact hnot
  | case3 c rest hc hnot ih =>
    have hrest : wellEscaped rest = true := by
      rw [wellEscaped] at hwell
      · exact hwell
      · exact hc
      · exact hnot
    have hne : c ≠ '%' := hnot
    rw [decode_plain hne, List.length_cons, List.length_cons]
    have hlater := ih hrest ((List.mem_cons.mp hmem).resolve_left hne.symm)
    omega
  | case4 => cases hmem

end Escapes

section Separators

/-- A text splits in one way at the first of its separators. -/
theorem split_inj {c : Char} {first second rest rest' : List Char} (hfirst : c ∉ first)
    (hsecond : c ∉ second) (h : first ++ c :: rest = second ++ c :: rest') :
    first = second ∧ rest = rest' := by
  induction first generalizing second with
  | nil =>
    cases second with
    | nil =>
      simp only [List.nil_append, List.cons.injEq, true_and] at h
      exact ⟨rfl, h⟩
    | cons d second =>
      simp only [List.nil_append, List.cons_append, List.cons.injEq] at h
      exact absurd (h.1 ▸ List.mem_cons_self) hsecond
  | cons d first ih =>
    cases second with
    | nil =>
      simp only [List.nil_append, List.cons_append, List.cons.injEq] at h
      exact absurd (h.1 ▸ List.mem_cons_self) hfirst
    | cons d' second =>
      rw [List.cons_append, List.cons_append, List.cons.injEq] at h
      obtain ⟨rfl, hrest⟩ := ih (fun hmem => hfirst (List.mem_cons_of_mem _ hmem))
        (fun hmem => hsecond (List.mem_cons_of_mem _ hmem)) h.2
      exact ⟨by rw [h.1], hrest⟩

end Separators

section Unicode

def octets (text : List Char) : List UInt8 := text.flatMap String.utf8EncodeChar

theorem octets_injective : Function.Injective octets := by
  intro first second h
  have hbytes : first.utf8Encode = second.utf8Encode := by
    simp only [List.utf8Encode]
    exact congrArg List.toByteArray h
  refine String.ofList_injective (String.toByteArray_inj.mp ?_)
  rw [String.toByteArray_ofList, String.toByteArray_ofList, hbytes]

def replacement : Char := Char.ofNat 0xFFFD

/-- Reads so many continuation octets, the first of which is in the given range. The octets before
one that does not continue the sequence are replaced. -/
def readContinuation (low high value : ℕ) : ℕ → List UInt8 → Char × List UInt8
  | 0, rest => (Char.ofNat value, rest)
  | _ + 1, [] => (replacement, [])
  | count + 1, octet :: rest =>
    if low ≤ octet.toNat ∧ octet.toNat ≤ high then
      readContinuation 0x80 0xBF (64 * value + (octet.toNat - 0x80)) count rest
    else (replacement, octet :: rest)

/-- The character that begins with an octet, and the octets after it. -/
def readCharacter (first : ℕ) (rest : List UInt8) : Char × List UInt8 :=
  if first < 0x80 then (Char.ofNat first, rest)
  else if first < 0xC2 then (replacement, rest)
  else if first < 0xE0 then readContinuation 0x80 0xBF (first - 0xC0) 1 rest
  else if first = 0xE0 then readContinuation 0xA0 0xBF 0 2 rest
  else if first = 0xED then readContinuation 0x80 0x9F 0xD 2 rest
  else if first < 0xF0 then readContinuation 0x80 0xBF (first - 0xE0) 2 rest
  else if first = 0xF0 then readContinuation 0x90 0xBF 0 3 rest
  else if first < 0xF4 then readContinuation 0x80 0xBF (first - 0xF0) 3 rest
  else if first = 0xF4 then readContinuation 0x80 0x8F 4 3 rest
  else (replacement, rest)

def readCharacters : ℕ → List UInt8 → List Char
  | _, [] => []
  | 0, _ => []
  | count + 1, first :: rest =>
    (readCharacter first.toNat rest).1 :: readCharacters count (readCharacter first.toNat rest).2

/-- `octets.decode("utf-8", "replace")` -/
def decodeUtf8 (octets : List UInt8) : List Char := readCharacters octets.length octets

theorem length_readCharacters_le (count : ℕ) (rest : List UInt8) :
    (readCharacters count rest).length ≤ count := by
  induction count generalizing rest with
  | zero => cases rest <;> simp [readCharacters]
  | succ count ih =>
    cases rest with
    | nil => simp [readCharacters]
    | cons first rest =>
      rw [readCharacters, List.length_cons]
      have := ih (readCharacter first.toNat rest).2
      omega

theorem length_decodeUtf8_le (octets : List UInt8) :
    (decodeUtf8 octets).length ≤ octets.length := length_readCharacters_le _ _

/-- `urllib.parse.quote(text, safe="~-._")` -/
def quote (text : List Char) : List Char := encode (octets text)

/-- `urllib.parse.unquote(text)` of a text of ASCII characters. -/
def unquote (text : List Char) : List Char :=
  if '%' ∈ text then decodeUtf8 (decode text) else text

theorem quote_injective : Function.Injective quote := encode_injective.comp octets_injective

/-- A well-formed text is unquoted to itself only if it has nothing to unquote. -/
theorem unquote_eq_self_iff {text : List Char} (hwell : wellEscaped text = true) :
    unquote text = text ↔ '%' ∉ text := by
  unfold unquote
  split
  next hmem =>
    refine iff_of_false ?_ (not_not_intro hmem)
    intro heq
    have hlt := length_decode_lt hwell hmem
    have hle := length_decodeUtf8_le (decode text)
    rw [heq] at hle
    omega
  next hnot => exact iff_of_true rfl hnot

example : unquote "/caf%C3%A9%20%FF/%zz".toList = "/café \uFFFD/%zz".toList := by decide

end Unicode

end PercentText
