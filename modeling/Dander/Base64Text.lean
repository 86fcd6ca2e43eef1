import Mathlib.Data.List.DropRight
import Mathlib.Data.UInt
import Mathlib.Tactic.Common

/-!
# Base64

Three bytes make four characters; one or two bytes that are left over are padded. Characters
stand for six bits each, with '-' and '_' for the last two; the reader takes '+' and '/' as well.
-/
namespace Base64Text

section Symbols

def symbol (digit : ℕ) : Char :=
  if digit < 26 then Char.ofNat (65 + digit)
  else if digit < 52 then Char.ofNat (97 + (digit - 26))
  else if digit < 62 then Char.ofNat (48 + (digit - 52))
  else if digit = 62 then '-' else '_'

def value (c : Char) : Option ℕ :=
  if 65 ≤ c.toNat ∧ c.toNat ≤ 90 then some (c.toNat - 65)
  else if 97 ≤ c.toNat ∧ c.toNat ≤ 122 then some (c.toNat - 97 + 26)
  else if 48 ≤ c.toNat ∧ c.toNat ≤ 57 then some (c.toNat - 48 + 52)
  else if c = '-' ∨ c = '+' then some 62
  else if c = '_' ∨ c = '/' then some 63
  else none

theorem value_symbol {digit : ℕ} (h : digit < 64) : value (symbol digit) = some digit := by
  revert digit
  decide

end Symbols

section Groups

def encode : List UInt8 → List Char
  | [] => []
  | [a] => [symbol (a.toNat / 4), symbol (a.toNat % 4 * 16), '=', '=']
  | [a, b] => [symbol (a.toNat / 4), symbol (a.toNat % 4 * 16 + b.toNat / 16),
      symbol (b.toNat % 16 * 4), '=']
  | a :: b :: c :: rest => symbol (a.toNat / 4) :: symbol (a.toNat % 4 * 16 + b.toNat / 16) ::
      symbol (b.toNat % 16 * 4 + c.toNat / 64) :: symbol (c.toNat % 64) :: encode rest

/-- The first byte of two digits. -/
def firstByte (i j : ℕ) : UInt8 := UInt8.ofNat (i * 4 + j / 16)

def secondByte (j k : ℕ) : UInt8 := UInt8.ofNat (j % 16 * 16 + k / 4)

def thirdByte (k l : ℕ) : UInt8 := UInt8.ofNat (k % 4 * 64 + l)

/-- The bytes of one group of characters; only the last group may be padded. -/
def decodeGroup (isLast : Bool) (p q r s : Char) : Option (List UInt8) :=
  match value p, value q, value r, value s with
  | some i, some j, some k, some l => some [firstByte i j, secondByte j k, thirdByte k l]
  | some i, some j, some k, none =>
    if isLast && s == '=' then some [firstByte i j, secondByte j k] else none
  | some i, some j, none, none =>
    if isLast && r == '=' && s == '=' then some [firstByte i j] else none
  | _, _, _, _ => none

def decode : List Char → Option (List UInt8)
  | [] => some []
  | p :: q :: r :: s :: rest => (decodeGroup rest.isEmpty p q r s).bind fun bytes =>
      (decode rest).map fun others => bytes ++ others
  | _ => none

theorem length_encode (bytes : List UInt8) :
    (encode bytes).length = 4 * ((bytes.length + 2) / 3) := by
  induction bytes using encode.induct with
  | case1 => rfl
  | case2 a => simp [encode]
  | case3 a b => simp [encode]
  | case4 a b c rest ih =>
    simp only [encode, List.length_cons, ih]
    omega

theorem ofNat_eq {n : ℕ} {a : UInt8} (h : n = a.toNat) : UInt8.ofNat n = a := by
  subst h
  simp

theorem firstByte_eq (a : UInt8) {x : ℕ} (hx : x < 16) :
    firstByte (a.toNat / 4) (a.toNat % 4 * 16 + x) = a := by
  apply ofNat_eq
  omega

theorem secondByte_eq (a b : UInt8) {x : ℕ} (hx : x < 4) :
    secondByte (a.toNat % 4 * 16 + b.toNat / 16) (b.toNat % 16 * 4 + x) = b := by
  have hb := b.toNat_lt
  apply ofNat_eq
  omega

theorem thirdByte_eq (b c : UInt8) :
    thirdByte (b.toNat % 16 * 4 + c.toNat / 64) (c.toNat % 64) = c := by
  have hc := c.toNat_lt
  apply ofNat_eq
  omega

theorem value_padding : value '=' = none := by decide

/-- Reading what was written gives the bytes back. -/
theorem decode_encode (bytes : List UInt8) : decode (encode bytes) = some bytes := by
  induction bytes using encode.induct with
  | case1 => rfl
  | case2 a =>
    have ha := a.toNat_lt
    have hfirst := firstByte_eq a (show 0 < 16 by omega)
    rw [Nat.add_zero] at hfirst
    simp [encode, decode, decodeGroup, value_symbol (show a.toNat / 4 < 64 by omega),
      value_symbol (show a.toNat % 4 * 16 < 64 by omega), value_padding, hfirst]
  | case3 a b =>
    have ha := a.toNat_lt
    have hb := b.toNat_lt
    have hfirst := firstByte_eq a (show b.toNat / 16 < 16 by omega)
    have hsecond := secondByte_eq a b (show 0 < 4 by omega)
    rw [Nat.add_zero] at hsecond
    simp [encode, decode, decodeGroup, value_symbol (show a.toNat / 4 < 64 by omega),
      value_symbol (show a.toNat % 4 * 16 + b.toNat / 16 < 64 by omega),
      value_symbol (show b.toNat % 16 * 4 < 64 by omega), value_padding, hfirst, hsecond]
  | case4 a b c rest ih =>
    have ha := a.toNat_lt
    have hb := b.toNat_lt
    have hc := c.toNat_lt
    have hfirst := firstByte_eq a (show b.toNat / 16 < 16 by omega)
    have hsecond := secondByte_eq a b (show c.toNat / 64 < 4 by omega)
    have hthird := thirdByte_eq b c
    simp [encode, decode, decodeGroup, value_symbol (show a.toNat / 4 < 64 by omega),
      value_symbol (show a.toNat % 4 * 16 + b.toNat / 16 < 64 by omega),
      value_symbol (show b.toNat % 16 * 4 + c.toNat / 64 < 64 by omega),
      value_symbol (show c.toNat % 64 < 64 by omega), hfirst, hsecond, hthird, ih]

end Groups

section Padding

/-- The characters without the padding, as a cursor or a URL carries them. -/
def unpadded (chars : List Char) : List Char := chars.rdropWhile (· = '=')

def padded (chars : List Char) : List Char :=
  chars ++ List.replicate ((4 - chars.length % 4) % 4) '='

theorem symbol_ne {digit : ℕ} (h : digit < 64) : symbol digit ≠ '=' := by
  intro hsymbol
  have hvalue := value_symbol h
  rw [hsymbol, value_padding] at hvalue
  cases hvalue

theorem last_group {bytes : List UInt8} (h : bytes ≠ []) :
    ∃ p q r s, [p, q, r, s] <:+ encode bytes ∧ p ≠ '=' := by
  have hfirst : ∀ a : UInt8, symbol (a.toNat / 4) ≠ '=' := by
    intro a
    have ha := a.toNat_lt
    exact symbol_ne (by omega)
  induction bytes using encode.induct with
  | case1 => exact absurd rfl h
  | case2 a => exact ⟨_, _, _, _, List.suffix_refl _, hfirst a⟩
  | case3 a b => exact ⟨_, _, _, _, List.suffix_refl _, hfirst a⟩
  | case4 a b c rest ih =>
    by_cases hrest : rest = []
    · subst hrest
      exact ⟨_, _, _, _, List.suffix_refl _, hfirst a⟩
    · obtain ⟨p, q, r, s, hgroup, hp⟩ := ih hrest
      refine ⟨p, q, r, s, ?_, hp⟩
      rw [encode]
      exact hgroup.trans (List.suffix_append [_, _, _, _] (encode rest))

/-- Padding that is left out is put back. -/
theorem padded_unpadded (bytes : List UInt8) :
    padded (unpadded (encode bytes)) = encode bytes := by
  have hsplit := List.rdropWhile_append_rtakeWhile (p := (· = '=')) (l := encode bytes)
  have hpadding : ∀ c ∈ (encode bytes).rtakeWhile (· = '='), c = '=' := by
    intro c hc
    simpa using List.mem_rtakeWhile_imp hc
  have hshort : ((encode bytes).rtakeWhile (· = '=')).length ≤ 3 := by
    by_cases hbytes : bytes = []
    · simp [hbytes, encode]
    · obtain ⟨p, q, r, s, hlast, hp⟩ := last_group hbytes
      by_contra hlong
      have hgroup : [p, q, r, s] <:+ (encode bytes).rtakeWhile (· = '=') := by
        apply List.suffix_of_suffix_length_le
        · exact hlast
        · exact List.rtakeWhile_suffix _ _
        · simp only [List.length_cons, List.length_nil]
          omega
      exact hp (hpadding p (hgroup.subset (by simp)))
  have hlength := congrArg List.length hsplit
  rw [List.length_append, length_encode] at hlength
  rw [List.eq_replicate_of_mem hpadding] at hsplit
  unfold padded unpadded
  have hcount : (4 - ((encode bytes).rdropWhile (· = '=')).length % 4) % 4 =
      ((encode bytes).rtakeWhile (· = '=')).length := by omega
  rw [hcount]
  exact hsplit

end Padding
section Texts

/-- The base64 of a text's UTF-8. -/
def encodeText (text : String) : String := String.ofList (encode text.toUTF8.data.toList)

/-- The text whose UTF-8 a base64 text holds, if it holds one. -/
def decodeText (text : String) : Option String :=
  (decode text.toList).bind fun bytes => String.fromUTF8? ⟨bytes.toArray⟩

theorem decodeText_encodeText (text : String) : decodeText (encodeText text) = some text := by
  unfold decodeText encodeText
  rw [String.toList_ofList, decode_encode]
  have hvalid : text.toByteArray.IsValidUTF8 := text.isValidUTF8
  simp [String.fromUTF8?, hvalid]
  rfl

theorem length_encodeText (text : String) :
    (encodeText text).toList.length = 4 * ((text.utf8ByteSize + 2) / 3) := by
  unfold encodeText
  rw [String.toList_ofList, length_encode]
  rfl

/-- A character of ASCII takes one byte. -/
theorem utf8ByteSize_of_ascii {text : String} (h : ∀ c ∈ text.toList, c.toNat < 128) :
    text.utf8ByteSize = text.toList.length := by
  have hsize : ∀ chars : List Char, (∀ c ∈ chars, c.toNat < 128) →
      (String.ofList chars).utf8ByteSize = chars.length := by
    intro chars hchars
    induction chars with
    | nil => rfl
    | cons c rest ih =>
      have hrest := ih fun d hd => hchars d (List.mem_cons_of_mem c hd)
      have hc : c.utf8Size = 1 := by
        rw [Char.utf8Size_eq_one_iff, UInt32.le_iff_toNat_le]
        have hlt := hchars c List.mem_cons_self
        show c.toNat ≤ 127
        omega
      rw [show c :: rest = [c] ++ rest from rfl, String.ofList_append, String.utf8ByteSize_append,
        hrest, ← String.singleton_eq_ofList, String.utf8ByteSize_singleton, hc, List.length_append,
        List.length_singleton]
  have htext := hsize text.toList h
  rwa [String.ofList_toList] at htext

end Texts

end Base64Text
