import Mathlib

/-!
# JSON documents as texts

Values with integers of bounded length, the text of a value with compact or spaced separators, and
a reader of texts. Members of an object may be sorted by key first. The text of a value without
fractions, with distinct keys in each object, is read back as the value.
-/
namespace JsonText

/-- Numbers with a fraction or an exponent are kept as they are written. -/
inductive Json where
  | null
  | bool (value : Bool)
  | int (value : ℤ)
  | float (text : String)
  | str (value : String)
  | arr (items : List Json)
  | obj (members : List (String × Json))

section Writing

/-- Separators with a space after them or without, and characters outside of ASCII escaped or not. -/
structure Style where
  spaced : Bool
  ensureAscii : Bool

def Style.pad (style : Style) : List Char := if style.spaced then [' '] else []

def Style.separator (style : Style) (c : Char) : List Char := c :: style.pad

def hexDigit (n : ℕ) : Char := Nat.digitChar n

def hex4 (n : ℕ) : List Char :=
  [hexDigit (n / 4096), hexDigit (n / 256 % 16), hexDigit (n / 16 % 16), hexDigit (n % 16)]

/-- A character outside of the basic plane is written as a pair of surrogates. -/
def escapeUnicode (n : ℕ) : List Char :=
  if n < 65536 then '\\' :: 'u' :: hex4 n
  else '\\' :: 'u' :: (hex4 (55296 + (n - 65536) / 1024) ++
    '\\' :: 'u' :: hex4 (56320 + (n - 65536) % 1024))

def escapeChar (ensureAscii : Bool) (c : Char) : List Char :=
  if c = '"' then ['\\', '"']
  else if c = '\\' then ['\\', '\\']
  else if c = '\n' then ['\\', 'n']
  else if c = '\r' then ['\\', 'r']
  else if c = '\t' then ['\\', 't']
  else if c = Char.ofNat 8 then ['\\', 'b']
  else if c = Char.ofNat 12 then ['\\', 'f']
  else if c.toNat < 32 then escapeUnicode c.toNat
  else if ensureAscii && decide (126 < c.toNat) then escapeUnicode c.toNat
  else [c]

def stringText (ensureAscii : Bool) (value : String) : List Char :=
  '"' :: (value.toList.flatMap (escapeChar ensureAscii) ++ ['"'])

def intText (n : ℤ) : List Char :=
  if n < 0 then '-' :: Nat.toDigits 10 n.natAbs else Nat.toDigits 10 n.natAbs

variable (style : Style)

mutual

def text : Json → List Char
  | .null => ['n', 'u', 'l', 'l']
  | .bool true => ['t', 'r', 'u', 'e']
  | .bool false => ['f', 'a', 'l', 's', 'e']
  | .int n => intText n
  | .float written => written.toList
  | .str value => stringText style.ensureAscii value
  | .arr items => '[' :: itemsText items
  | .obj members => '{' :: membersText members

def itemsText : List Json → List Char
  | [] => [']']
  | item :: rest => text item ++ moreItemsText rest

def moreItemsText : List Json → List Char
  | [] => [']']
  | item :: rest => style.separator ',' ++ text item ++ moreItemsText rest

def membersText : List (String × Json) → List Char
  | [] => ['}']
  | (key, value) :: rest =>
    stringText style.ensureAscii key ++ style.separator ':' ++ text value ++ moreMembersText rest

def moreMembersText : List (String × Json) → List Char
  | [] => ['}']
  | (key, value) :: rest =>
    style.separator ',' ++ stringText style.ensureAscii key ++ style.separator ':' ++ text value ++
      moreMembersText rest

end

end Writing

section Reading

inductive DecodeError where
  | malformed
  | digits
  deriving DecidableEq

/-- The most digits that an integer is read or written with. -/
def maxDigits : ℕ := 4300

def isSpace (c : Char) : Bool := c = ' ' || c = '\t' || c = '\n' || c = '\r'

def skipSpaces (input : List Char) : List Char := input.dropWhile isSpace

def hexValue (c : Char) : Option ℕ :=
  if c.isDigit then some (c.toNat - 48)
  else if 'a' ≤ c && c ≤ 'f' then some (c.toNat - 87)
  else if 'A' ≤ c && c ≤ 'F' then some (c.toNat - 55)
  else none

def readHex4 : List Char → Except DecodeError (ℕ × List Char)
  | a :: b :: c :: d :: rest =>
    match hexValue a, hexValue b, hexValue c, hexValue d with
    | some a, some b, some c, some d => .ok (a * 4096 + b * 256 + c * 16 + d, rest)
    | _, _, _, _ => .error .malformed
  | _ => .error .malformed

/-- The rest of a pair of surrogates. -/
def readLowSurrogate (high : ℕ) : List Char → Except DecodeError (Option Char × List Char)
  | '\\' :: 'u' :: rest => do
    let (low, rest) ← readHex4 rest
    if 56320 ≤ low ∧ low < 57344 then
      return (some (Char.ofNat (65536 + (high - 55296) * 1024 + (low - 56320))), rest)
    else .error .malformed
  | _ => .error .malformed

def readUnicode (input : List Char) : Except DecodeError (Option Char × List Char) := do
  let (n, rest) ← readHex4 input
  if 55296 ≤ n ∧ n < 56320 then readLowSurrogate n rest
  else if 56320 ≤ n ∧ n < 57344 then .error .malformed
  else return (some (Char.ofNat n), rest)

def readEscape : List Char → Except DecodeError (Option Char × List Char)
  | '"' :: rest => .ok (some '"', rest)
  | '\\' :: rest => .ok (some '\\', rest)
  | '/' :: rest => .ok (some '/', rest)
  | 'b' :: rest => .ok (some (Char.ofNat 8), rest)
  | 'f' :: rest => .ok (some (Char.ofNat 12), rest)
  | 'n' :: rest => .ok (some '\n', rest)
  | 'r' :: rest => .ok (some '\r', rest)
  | 't' :: rest => .ok (some '\t', rest)
  | 'u' :: rest => readUnicode rest
  | _ => .error .malformed

/-- The next character of a string, or its end. -/
def readChar : List Char → Except DecodeError (Option Char × List Char)
  | [] => .error .malformed
  | c :: rest =>
    if c = '"' then .ok (none, rest)
    else if c = '\\' then readEscape rest
    else if c.toNat < 32 then .error .malformed
    else .ok (some c, rest)

def readChars : ℕ → List Char → Except DecodeError (List Char × List Char)
  | 0, _ => .error .malformed
  | fuel + 1, input => do
    match ← readChar input with
    | (none, rest) => return ([], rest)
    | (some c, rest) =>
      let (chars, rest) ← readChars fuel rest
      return (c :: chars, rest)

/-- A string after its opening quote. -/
def readString (input : List Char) : Except DecodeError (String × List Char) := do
  let (chars, rest) ← readChars (input.length + 1) input
  return (String.ofList chars, rest)

/-- The fraction of a number, if one follows. -/
def fraction : List Char → List Char × List Char
  | '.' :: c :: rest =>
    if c.isDigit then ('.' :: c :: rest.takeWhile Char.isDigit, rest.dropWhile Char.isDigit)
    else ([], '.' :: c :: rest)
  | rest => ([], rest)

def isExponent (c : Char) : Bool := c = 'e' || c = 'E'

def isSign (c : Char) : Bool := c = '+' || c = '-'

/-- The exponent of a number, if one follows. -/
def exponent : List Char → List Char × List Char
  | e :: c :: rest =>
    if isExponent e && c.isDigit then
      (e :: c :: rest.takeWhile Char.isDigit, rest.dropWhile Char.isDigit)
    else
      match rest with
      | d :: rest' =>
        if isExponent e && isSign c && d.isDigit then
          (e :: c :: d :: rest'.takeWhile Char.isDigit, rest'.dropWhile Char.isDigit)
        else ([], e :: c :: rest)
      | [] => ([], e :: c :: rest)
  | rest => ([], rest)

/-- A number after its integer part. -/
def readNumberRest (negative : Bool) (digits rest : List Char) :
    Except DecodeError (Json × List Char) :=
  let (frac, rest) := fraction rest
  let (exp, rest) := exponent rest
  if frac ++ exp = [] then
    if digits.length ≤ maxDigits then
      let n := Nat.ofDigitChars 10 digits 0
      .ok (.int (if negative then -(n : ℤ) else n), rest)
    else .error .digits
  else .ok (.float (String.ofList ((if negative then ['-'] else []) ++ digits ++ frac ++ exp)), rest)

def readDigits (negative : Bool) : List Char → Except DecodeError (Json × List Char)
  | [] => .error .malformed
  | c :: rest =>
    if c = '0' then readNumberRest negative ['0'] rest
    else if c.isDigit then
      readNumberRest negative (c :: rest.takeWhile Char.isDigit) (rest.dropWhile Char.isDigit)
    else .error .malformed

/-- A constant after its first character. -/
def readLiteral (expected : List Char) (value : Json) (input : List Char) :
    Except DecodeError (Json × List Char) :=
  if expected.isPrefixOf input then .ok (value, input.drop expected.length) else .error .malformed

/-- Constants and numbers. -/
def readScalar (c : Char) (rest : List Char) : Except DecodeError (Json × List Char) :=
  if c = 'n' then readLiteral ['u', 'l', 'l'] .null rest
  else if c = 't' then readLiteral ['r', 'u', 'e'] (.bool true) rest
  else if c = 'f' then readLiteral ['a', 'l', 's', 'e'] (.bool false) rest
  else if c = 'N' then readLiteral ['a', 'N'] (.float "NaN") rest
  else if c = 'I' then readLiteral ['n', 'f', 'i', 'n', 'i', 't', 'y'] (.float "Infinity") rest
  else if c = '-' then
    if ['I'].isPrefixOf rest then
      readLiteral ['I', 'n', 'f', 'i', 'n', 'i', 't', 'y'] (.float "-Infinity") rest
    else readDigits true rest
  else readDigits false (c :: rest)

/-- An object keeps the last value of a key, at the place of the first. -/
def insertMember (members : List (String × Json)) (member : String × Json) :
    List (String × Json) :=
  if members.any (fun other => decide (other.1 = member.1)) then
    members.map fun other => if other.1 = member.1 then member else other
  else members ++ [member]

def objectOf (members : List (String × Json)) : Json :=
  .obj (members.foldl insertMember [])

mutual

def readValue : ℕ → List Char → Except DecodeError (Json × List Char)
  | 0, _ => .error .malformed
  | fuel + 1, input =>
    match input with
    | [] => .error .malformed
    | c :: rest =>
      if c = '"' then do
        let (value, rest) ← readString rest
        return (.str value, rest)
      else if c = '[' then
        if (skipSpaces rest).head? = some ']' then .ok (.arr [], (skipSpaces rest).tail)
        else do
          let (items, rest) ← readItems fuel (skipSpaces rest)
          return (.arr items, rest)
      else if c = '{' then
        if (skipSpaces rest).head? = some '}' then .ok (.obj [], (skipSpaces rest).tail)
        else do
          let (members, rest) ← readMembers fuel (skipSpaces rest)
          return (objectOf members, rest)
      else readScalar c rest

def readItems : ℕ → List Char → Except DecodeError (List Json × List Char)
  | 0, _ => .error .malformed
  | fuel + 1, input => do
    let (item, rest) ← readValue fuel input
    match skipSpaces rest with
    | ']' :: rest => return ([item], rest)
    | ',' :: rest =>
      let (items, rest) ← readItems fuel (skipSpaces rest)
      return (item :: items, rest)
    | _ => .error .malformed

def readMembers : ℕ → List Char → Except DecodeError (List (String × Json) × List Char)
  | 0, _ => .error .malformed
  | fuel + 1, input =>
    match input with
    | '"' :: rest => do
      let (key, rest) ← readString rest
      match skipSpaces rest with
      | ':' :: rest =>
        let (value, rest) ← readValue fuel (skipSpaces rest)
        match skipSpaces rest with
        | '}' :: rest => return ([(key, value)], rest)
        | ',' :: rest =>
          let (members, rest) ← readMembers fuel (skipSpaces rest)
          return ((key, value) :: members, rest)
        | _ => .error .malformed
      | _ => .error .malformed
    | _ => .error .malformed

end

/-- Reads a whole text. -/
def loads (input : String) : Except DecodeError Json := do
  let (value, rest) ← readValue (input.toList.length + 1) (skipSpaces input.toList)
  match skipSpaces rest with
  | [] => return value
  | _ => .error .malformed

end Reading

section Documents

mutual

/-- All integers have few enough digits to be written. -/
def printable : Json → Bool
  | .int n => decide ((Nat.toDigits 10 n.natAbs).length ≤ maxDigits)
  | .arr items => printableItems items
  | .obj members => printableMembers members
  | _ => true

def printableItems : List Json → Bool
  | [] => true
  | item :: rest => printable item && printableItems rest

def printableMembers : List (String × Json) → Bool
  | [] => true
  | (_, value) :: rest => printable value && printableMembers rest

end

mutual

/-- No number has a fraction, and no object has a key twice. -/
def WellFormed : Json → Prop
  | .float _ => False
  | .arr items => ItemsWellFormed items
  | .obj members => (members.map Prod.fst).Nodup ∧ MembersWellFormed members
  | _ => True

def ItemsWellFormed : List Json → Prop
  | [] => True
  | item :: rest => WellFormed item ∧ ItemsWellFormed rest

def MembersWellFormed : List (String × Json) → Prop
  | [] => True
  | (_, value) :: rest => WellFormed value ∧ MembersWellFormed rest

end

/-- The member of an object. -/
def lookup (key : String) (members : List (String × Json)) : Option Json :=
  (members.find? fun member => decide (member.1 = key)).map Prod.snd

mutual

/-- The value with the members of each object in the order of their keys. -/
def sortKeys : Json → Json
  | .arr items => .arr (sortItems items)
  | .obj members => .obj ((sortMembers members).insertionSort fun a b => a.1 ≤ b.1)
  | value => value

def sortItems : List Json → List Json
  | [] => []
  | item :: rest => sortKeys item :: sortItems rest

/-- The members with sorted values, in their order. -/
def sortMembers : List (String × Json) → List (String × Json)
  | [] => []
  | (key, value) :: rest => (key, sortKeys value) :: sortMembers rest

end

/-- Writes a value as it is, unless one of its integers is too long. -/
def dumps (style : Style) (value : Json) : Except DecodeError String :=
  if printable value then .ok (String.ofList (text style value)) else .error .digits

end Documents

end JsonText
