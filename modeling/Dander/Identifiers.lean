import Mathlib.Init

/-!
# Identifier syntax shared by the control plane

The regular expressions of the source, as checks on texts.
-/
namespace Dander

/-- The characters `str.strip` removes. -/
def isSpace (c : Char) : Bool :=
  let n := c.toNat
  (9 ≤ n && n ≤ 13) || (28 ≤ n && n ≤ 32) || n == 0x85 || n == 0xa0 || n == 0x1680 ||
    (0x2000 ≤ n && n ≤ 0x200a) || n == 0x2028 || n == 0x2029 || n == 0x202f || n == 0x205f ||
    n == 0x3000

/-- `value.strip() != value`. -/
def hasOuterSpace (value : List Char) : Bool :=
  value.head?.any isSpace || value.getLast?.any isSpace

def isLowerOrDigit (c : Char) : Bool :=
  (97 ≤ c.toNat && c.toNat ≤ 122) || (48 ≤ c.toNat && c.toNat ≤ 57)

def isAlphanumeric (c : Char) : Bool := isLowerOrDigit c || (65 ≤ c.toNat && c.toNat ≤ 90)

/-- `^[a-z0-9][a-z0-9_-]{0,62}$`. -/
def isPortableId (text : String) : Bool :=
  match text.toList with
  | [] => false
  | first :: rest => isLowerOrDigit first && decide (rest.length ≤ 62) &&
      rest.all (fun c => isLowerOrDigit c || c = '_' || c = '-')

/-- `^[A-Za-z0-9][A-Za-z0-9._:-]{0,127}$`. -/
def isOpaqueId (text : String) : Bool :=
  match text.toList with
  | [] => false
  | first :: rest => isAlphanumeric first && decide (rest.length ≤ 127) &&
      rest.all (fun c => isAlphanumeric c || c = '.' || c = '_' || c = ':' || c = '-')

/-- `^[0-9a-f]{64}$`. -/
def isSha256 (text : String) : Bool :=
  decide (text.toList.length = 64) && text.toList.all
    (fun c => (97 ≤ c.toNat && c.toNat ≤ 102) || (48 ≤ c.toNat && c.toNat ≤ 57))

/-- A summary text: not blank, at most 128 characters, on one line. -/
def isSummary (text : String) : Bool :=
  text.toList.any (fun c => !isSpace c) && decide (text.toList.length ≤ 128) &&
    !text.toList.contains '\n'

end Dander
