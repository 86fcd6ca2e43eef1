import Dander.Base64Text
import Dander.GraphPages
import Dander.JsonRoundTrip

/-!
# The cursors of graph listings

A cursor is the unpadded base64 of a JSON object with the last graph, its project and a version.
-/
namespace Dander.GraphStore

open JsonText

section Reading

/-- Bytes that are not UTF-8, and whether a number with a fraction is one, as Python reads them. -/
structure PayloadReader where
  decodeOther : List UInt8 → Option String
  isOne : String → Bool

/-- `json.detect_encoding`, whether it finds UTF-8. -/
def detectsUtf8 : List UInt8 → Bool
  | 0xfe :: 0xff :: _ => false
  | 0xff :: 0xfe :: _ => false
  | 0xef :: 0xbb :: 0xbf :: _ => false
  | [a, b] => a ≠ 0 && b ≠ 0
  | a :: b :: _ :: _ :: _ => a ≠ 0 && b ≠ 0
  | _ => true

variable (reader : PayloadReader)

def decodedBytes (bytes : List UInt8) : Option String :=
  if detectsUtf8 bytes then String.fromUTF8? ⟨bytes.toArray⟩ else reader.decodeOther bytes

/-- Python compares the version with 1, which `True` and `1.0` equal. -/
def payloadVersion : Json → Option ℤ
  | .int n => some n
  | .bool true => some 1
  | .float written => if reader.isOne written then some 1 else none
  | _ => none

/-- An object with the three fields of a payload. -/
def payloadOf : Json → Option CursorPayload
  | .obj members =>
    if members.length = 3 then
      match lookup "after" members, lookup "project" members, lookup "version" members with
      | some (.str after), some (.str project), some version =>
        (payloadVersion reader version).map fun number => ⟨after, project, number⟩
      | _, _, _ => none
    else none
  | _ => none

def loadsCursor (cursor : String) : Option CursorPayload := do
  let bytes ← Base64Text.decode (Base64Text.padded cursor.toList)
  let text ← decodedBytes reader bytes
  let value ← (loads text).toOption
  payloadOf reader value

def cursorCodec : CursorCodec where
  urlsafeB64encode := Base64Text.encodeText
  loads := loadsCursor reader

end Reading

section RoundTrip

variable {project after : String}

def payloadJson (project after : String) : Json :=
  .obj [("after", .str after), ("project", .str project), ("version", .int 1)]

def compact : Style := ⟨false, false⟩

theorem range_of_portable {c : Char} (h : (isLowerOrDigit c || c = '_' || c = '-') = true) :
    45 ≤ c.toNat ∧ c.toNat ≠ 92 ∧ c.toNat < 128 := by
  simp only [isLowerOrDigit, Bool.or_eq_true, Bool.and_eq_true, decide_eq_true_eq] at h
  rcases h with ((h | h) | rfl) | rfl
  · omega
  · omega
  · decide
  · decide

theorem stringText_of_portable {text : String} (h : isPortableId text = true) :
    stringText false text = '"' :: (text.toList ++ ['"']) := by
  have hplain : ∀ chars : List Char,
      (∀ c ∈ chars, (isLowerOrDigit c || c = '_' || c = '-') = true) →
        chars.flatMap (escapeChar false) = chars := by
    intro chars
    induction chars with
    | nil => exact fun _ => rfl
    | cons c rest ih =>
      intro hall
      have hrest := ih fun other hother => hall other (List.mem_cons_of_mem c hother)
      obtain ⟨hlow, hbackslash, -⟩ := range_of_portable (hall c List.mem_cons_self)
      have hne : ∀ d : Char, d.toNat < 45 ∨ d.toNat = 92 → c ≠ d := by
        rintro d hd rfl
        omega
      have hc : escapeChar false c = [c] := by
        unfold escapeChar
        rw [if_neg (hne _ (by decide)), if_neg (hne _ (by decide)), if_neg (hne _ (by decide)),
          if_neg (hne _ (by decide)), if_neg (hne _ (by decide)), if_neg (hne _ (by decide)),
          if_neg (hne _ (by decide)), if_neg (by omega)]
        rfl
      rw [List.flatMap_cons, hc, hrest]
      rfl
  unfold stringText
  rw [hplain _ (portable_chars h)]

theorem text_payload (hproject : isPortableId project = true) (hafter : isPortableId after = true) :
    (Schedule.jsonObject [("after", Schedule.jsonString after),
      ("project", Schedule.jsonString project), ("version", "1")]).toList =
        text compact (payloadJson project after) := by
  have hkeys : ∀ key, isPortableId key = true →
      (Schedule.jsonString key).toList = stringText false key := by
    intro key hkey
    rw [jsonString_of_portable hkey, stringText_of_portable hkey]
  have hkeyAfter := hkeys "after" (by decide)
  have hkeyProject := hkeys "project" (by decide)
  have hkeyVersion := hkeys "version" (by decide)
  have hnumber : intText 1 = ['1'] := by decide
  simp [Schedule.jsonObject, hkeys after hafter, hkeys project hproject, hkeyAfter, hkeyProject,
    hkeyVersion, text, payloadJson, membersText, moreMembersText, Style.separator, Style.pad,
    compact, hnumber]

theorem bytes_of_ascii (first second : Char) (hfirst : first.utf8Size = 1)
    (hsecond : second.utf8Size = 1) (rest : List Char) :
    ∃ bytes, (String.ofList (first :: second :: rest)).toUTF8.data.toList =
      first.val.toUInt8 :: second.val.toUInt8 :: bytes := by
  have hchars : (String.ofList (first :: second :: rest)).toUTF8 =
      [first.val.toUInt8].toByteArray ++ ([second.val.toUInt8].toByteArray ++ rest.utf8Encode) := by
    rw [← String.utf8EncodeChar_eq_singleton hfirst, ← String.utf8EncodeChar_eq_singleton hsecond,
      ← List.utf8Encode_singleton, ← List.utf8Encode_singleton, ← List.utf8Encode_cons,
      ← List.utf8Encode_cons]
    rfl
  refine ⟨rest.utf8Encode.data.toList, ?_⟩
  rw [hchars]
  simp

theorem detectsUtf8_object (bytes : List UInt8) : detectsUtf8 (0x7b :: 0x22 :: bytes) = true := by
  cases bytes with
  | nil => rfl
  | cons third rest =>
    cases rest with
    | nil => rfl
    | cons fourth rest => rfl

theorem decodedBytes_payload {payload : String} {rest : List Char}
    (h : payload.toList = '{' :: '"' :: rest) (reader : PayloadReader) :
    decodedBytes reader payload.toUTF8.data.toList = some payload := by
  have hpayload : payload = String.ofList ('{' :: '"' :: rest) := by
    rw [← h, String.ofList_toList]
  obtain ⟨bytes, hbytes⟩ := bytes_of_ascii '{' '"' rfl rfl rest
  rw [← hpayload] at hbytes
  have hdetects : detectsUtf8 payload.toUTF8.data.toList = true := by
    rw [hbytes]
    exact detectsUtf8_object bytes
  have hvalid : payload.toByteArray.IsValidUTF8 := payload.isValidUTF8
  unfold decodedBytes
  rw [if_pos hdetects]
  simp [String.fromUTF8?, hvalid]
  rfl

theorem loadsCursor_encode (reader : PayloadReader) (hproject : isPortableId project = true)
    (hafter : isPortableId after = true) :
    loadsCursor reader (encodeCursor (cursorCodec reader) project after) =
      some ⟨after, project, 1⟩ := by
  have htext := text_payload hproject hafter
  unfold encodeCursor
  dsimp only
  generalize Schedule.jsonObject [("after", Schedule.jsonString after),
    ("project", Schedule.jsonString project), ("version", "1")] = payload at htext
  have hpayload : payload = String.ofList (text compact (payloadJson project after)) := by
    rw [← htext, String.ofList_toList]
  have hcursor : Base64Text.padded (String.ofList
      (((cursorCodec reader).urlsafeB64encode payload).toList.reverse.dropWhile
        (· = '=')).reverse).toList = Base64Text.encode payload.toUTF8.data.toList := by
    rw [String.toList_ofList]
    have hencoded : ((cursorCodec reader).urlsafeB64encode payload).toList =
        Base64Text.encode payload.toUTF8.data.toList := String.toList_ofList
    rw [hencoded]
    exact Base64Text.padded_unpadded _
  have hread : loads payload = .ok (payloadJson project after) := by
    rw [hpayload]
    apply loads_text compact
    · simp [payloadJson, WellFormed, MembersWellFormed]
    · have hdigits : (Nat.toDigits 10 1).length ≤ maxDigits := by decide
      simp [payloadJson, printable, printableMembers, hdigits]
  unfold loadsCursor
  rw [hcursor, Base64Text.decode_encode, Option.bind_eq_bind, Option.bind_some,
    decodedBytes_payload htext, Option.bind_eq_bind, Option.bind_some, hread]
  rfl

theorem ascii_of_portable {text : String} (h : isPortableId text = true) :
    text.toList.length ≤ 63 ∧ ∀ c ∈ text.toList, c.toNat < 128 := by
  refine ⟨?_, fun c hc => (range_of_portable (portable_chars h c hc)).2.2⟩
  unfold isPortableId at h
  split at h
  · cases h
  next first rest htext =>
    simp only [Bool.and_eq_true, decide_eq_true_eq] at h
    rw [htext, List.length_cons]
    omega

theorem text_payload_eq (hproject : isPortableId project = true)
    (hafter : isPortableId after = true) :
    text compact (payloadJson project after) = ('{' :: "\"after\":\"".toList) ++ (after.toList ++
      ("\",\"project\":\"".toList ++ (project.toList ++ ("\",\"version\":1".toList ++ ['}'])))) := by
  have hkeyAfter : stringText false "after" = "\"after\"".toList := by decide
  have hkeyProject : stringText false "project" = "\"project\"".toList := by decide
  have hkeyVersion : stringText false "version" = "\"version\"".toList := by decide
  have hnumber : intText 1 = ['1'] := by decide
  simp [text, payloadJson, membersText, moreMembersText, Style.separator, Style.pad, compact,
    hkeyAfter, hkeyProject, hkeyVersion, hnumber, stringText_of_portable hproject,
    stringText_of_portable hafter]

theorem length_encodeCursor (reader : PayloadReader) (hproject : isPortableId project = true)
    (hafter : isPortableId after = true) :
    encodeCursor (cursorCodec reader) project after ≠ "" ∧
      (encodeCursor (cursorCodec reader) project after).toList.length ≤ 512 := by
  have htext := text_payload hproject hafter
  unfold encodeCursor
  dsimp only
  generalize Schedule.jsonObject [("after", Schedule.jsonString after),
    ("project", Schedule.jsonString project), ("version", "1")] = payload at htext
  have hencoded : ((cursorCodec reader).urlsafeB64encode payload).toList =
      Base64Text.encode payload.toUTF8.data.toList := String.toList_ofList
  rw [hencoded]
  obtain ⟨hafterLength, hafterAscii⟩ := ascii_of_portable hafter
  obtain ⟨hprojectLength, hprojectAscii⟩ := ascii_of_portable hproject
  rw [text_payload_eq hproject hafter] at htext
  have hsize : payload.toUTF8.data.toList.length = payload.toList.length := by
    rw [← Base64Text.utf8ByteSize_of_ascii]
    · rfl
    · have hascii : ∀ {text : List Char}, text.all (fun c => decide (c.toNat < 128)) = true →
          ∀ c ∈ text, c.toNat < 128 := by
        intro text hall c hc
        exact of_decide_eq_true (List.all_eq_true.mp hall c hc)
      have hpre : ∀ c ∈ '{' :: "\"after\":\"".toList, c.toNat < 128 := hascii (by decide)
      have hmid : ∀ c ∈ "\",\"project\":\"".toList, c.toNat < 128 := hascii (by decide)
      have hpost : ∀ c ∈ "\",\"version\":1".toList ++ ['}'], c.toNat < 128 := hascii (by decide)
      rw [htext]
      intro c hc
      rcases List.mem_append.mp hc with hc | hc
      · exact hpre c hc
      · rcases List.mem_append.mp hc with hc | hc
        · exact hafterAscii c hc
        · rcases List.mem_append.mp hc with hc | hc
          · exact hmid c hc
          · rcases List.mem_append.mp hc with hc | hc
            · exact hprojectAscii c hc
            · exact hpost c hc
  have hlength : payload.toList.length = 37 + after.toList.length + project.toList.length := by
    rw [htext]
    simp
    omega
  have hencode := Base64Text.length_encode payload.toUTF8.data.toList
  rw [hsize, hlength] at hencode
  constructor
  · intro hempty
    have hpadded := Base64Text.padded_unpadded payload.toUTF8.data.toList
    have hnone : Base64Text.unpadded (Base64Text.encode payload.toUTF8.data.toList) = [] := by
      have hchars := congrArg String.toList hempty
      rwa [String.toList_ofList] at hchars
    rw [hnone] at hpadded
    rw [← hpadded] at hencode
    have hzero : (Base64Text.padded []).length = 0 := by decide
    omega
  · rw [String.toList_ofList]
    have hprefix := (List.rdropWhile_prefix (fun c => decide (c = '='))
      (Base64Text.encode payload.toUTF8.data.toList)).length_le
    have hbound : (Base64Text.encode payload.toUTF8.data.toList).length ≤ 512 := by omega
    exact hprefix.trans hbound

/-- A cursor decodes to the graph that it was made from. -/
theorem decodeCursor_encodeCursor (reader : PayloadReader) (hproject : isPortableId project = true)
    (hafter : isPortableId after = true) :
    decodeCursor (cursorCodec reader) project
      (some (encodeCursor (cursorCodec reader) project after)) = .ok (some after) := by
  obtain ⟨hnonempty, hshort⟩ := length_encodeCursor reader hproject hafter
  have hloads : (cursorCodec reader).loads (encodeCursor (cursorCodec reader) project after) =
      some ⟨after, project, 1⟩ := loadsCursor_encode reader hproject hafter
  unfold decodeCursor
  dsimp only
  rw [if_neg (by rintro (hempty | hlong); exact hnonempty hempty; omega)]
  simp only [hloads]
  simp [hafter, pure, Except.pure]

theorem decodeCursor_encodeCursor_orders :
    decodeCursor (cursorCodec ⟨fun _ => none, fun _ => false⟩) "shop"
      (some (encodeCursor (cursorCodec ⟨fun _ => none, fun _ => false⟩) "shop" "orders")) =
        .ok (some "orders") :=
  decodeCursor_encodeCursor _ (by decide) (by decide)

end RoundTrip

end Dander.GraphStore
