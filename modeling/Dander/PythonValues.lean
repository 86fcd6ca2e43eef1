import Mathlib

/-!
# Python values

The scalars that connectors yield and the normalizer returns, with their texts. Dates are valid
dates, times are valid times, and the UTC offset of an aware datetime is less than a day.
-/
namespace Dander.Python

/-- A text of at least the given number of digits: `%02d`, `%04d` and `%06d`. -/
def padded (width number : ℕ) : String :=
  String.ofList (List.replicate (width - (toString number).length) '0') ++ toString number

section Dates

def isLeap (year : ℕ) : Bool :=
  decide (year % 4 = 0) && (!decide (year % 100 = 0) || decide (year % 400 = 0))

def daysInMonth (year month : ℕ) : ℕ :=
  if month = 2 ∧ isLeap year then 29
  else [31, 28, 31, 30, 31, 30, 31, 31, 30, 31, 30, 31].getD (month - 1) 0

/-- `datetime.date` -/
structure Date where
  year : ℕ
  month : ℕ
  day : ℕ
  valid : 1 ≤ year ∧ year ≤ 9999 ∧ 1 ≤ month ∧ month ≤ 12 ∧ 1 ≤ day ∧ day ≤ daysInMonth year month
  deriving DecidableEq

def Date.isoformat (date : Date) : String :=
  padded 4 date.year ++ "-" ++ padded 2 date.month ++ "-" ++ padded 2 date.day

def daysBeforeYear (year : ℕ) : ℕ :=
  (year - 1) * 365 + (year - 1) / 4 - (year - 1) / 100 + (year - 1) / 400

def daysBeforeMonth (year month : ℕ) : ℕ :=
  ((List.range (month - 1)).map fun earlier => daysInMonth year (earlier + 1)).sum

/-- The number of the day, where the first of January of the year 1 is day 1. -/
def Date.toordinal (date : Date) : ℕ :=
  daysBeforeYear date.year + daysBeforeMonth date.year date.month + date.day

/-- `datetime.time` without a time zone. -/
structure Time where
  hour : ℕ
  minute : ℕ
  second : ℕ
  microsecond : ℕ
  valid : hour < 24 ∧ minute < 60 ∧ second < 60 ∧ microsecond < 1000000
  deriving DecidableEq

def Time.isoformat (time : Time) : String :=
  padded 2 time.hour ++ ":" ++ padded 2 time.minute ++ ":" ++ padded 2 time.second ++
    if time.microsecond = 0 then "" else "." ++ padded 6 time.microsecond

def Time.microseconds (time : Time) : ℤ :=
  ((time.hour * 60 + time.minute) * 60 + time.second) * 1000000 + time.microsecond

/-- `datetime.timedelta` as the UTC offset of a datetime, in microseconds. -/
structure UtcOffset where
  microseconds : ℤ
  valid : -86400000000 < microseconds ∧ microseconds < 86400000000
  deriving DecidableEq

def UtcOffset.isoformat (offset : UtcOffset) : String :=
  let size := offset.microseconds.natAbs
  let seconds := size / 1000000
  (if offset.microseconds < 0 then "-" else "+") ++
    padded 2 (seconds / 3600) ++ ":" ++ padded 2 (seconds / 60 % 60) ++
    (if seconds % 60 = 0 ∧ size % 1000000 = 0 then "" else ":" ++ padded 2 (seconds % 60)) ++
    if size % 1000000 = 0 then "" else "." ++ padded 6 (size % 1000000)

/-- `datetime.datetime`, naive or with the UTC offset of its time zone. -/
structure DateTime where
  date : Date
  time : Time
  utcoffset : Option UtcOffset
  deriving DecidableEq

def DateTime.isoformat (datetime : DateTime) : String :=
  datetime.date.isoformat ++ "T" ++ datetime.time.isoformat ++
    match datetime.utcoffset with
    | none => ""
    | some offset => offset.isoformat

/-- The microseconds since the beginning of the year 1 by its own clock. -/
def DateTime.local (datetime : DateTime) : ℤ :=
  datetime.date.toordinal * 86400000000 + datetime.time.microseconds

/-- The instant of an aware datetime. -/
def DateTime.instant (datetime : DateTime) : Option ℤ :=
  datetime.utcoffset.map fun offset => datetime.local - offset.microseconds

end Dates

section Numbers

/-- `decimal.Decimal` -/
inductive Decimal where
  | finite (negative : Bool) (coefficient : ℕ) (exponent : ℤ)
  | infinity (negative : Bool)
  | nan
  deriving DecidableEq

def Decimal.isFinite : Decimal → Bool
  | .finite .. => true
  | _ => false

def Decimal.toRat : Decimal → ℚ
  | .finite negative coefficient exponent =>
    (if negative then -1 else 1) * coefficient * (10 : ℚ) ^ exponent
  | _ => 0

/-- A decimal point stands after so many digits, and zeros fill the places without a digit. -/
def pointed (digits : List Char) (place : ℤ) : List Char :=
  if place ≤ 0 then '0' :: '.' :: (List.replicate place.natAbs '0' ++ digits)
  else if digits.length ≤ place then digits ++ List.replicate (place.natAbs - digits.length) '0'
  else digits.take place.natAbs ++ '.' :: digits.drop place.natAbs

def signText (negative : Bool) : String := if negative then "-" else ""

/-- `str` of a decimal: the scientific notation of the decimal arithmetic specification. -/
def Decimal.str : Decimal → String
  | .finite negative coefficient exponent =>
    let digits := (toString coefficient).toList
    let leftdigits := exponent + digits.length
    let dotplace := if exponent ≤ 0 ∧ -6 < leftdigits then leftdigits else 1
    signText negative ++ String.ofList (pointed digits dotplace) ++
      if leftdigits = dotplace then ""
      else "E" ++ (if leftdigits < dotplace then "" else "+") ++ toString (leftdigits - dotplace)
  | .infinity negative => signText negative ++ "Infinity"
  | .nan => "NaN"

/-- `format` of a decimal as `"f"`: without an exponent. -/
def Decimal.fixed : Decimal → String
  | .finite negative coefficient exponent =>
    let digits := (toString coefficient).toList
    signText negative ++ String.ofList
      (if coefficient = 0 ∧ 0 < exponent then ['0'] else pointed digits (exponent + digits.length))
  | .infinity negative => signText negative ++ "Infinity"
  | .nan => "NaN"

/-- A double: zero has a sign of its own. -/
inductive Float where
  | finite (value : ℚ)
  | negativeZero
  | infinity (negative : Bool)
  | nan
  deriving DecidableEq

def Float.isFinite : Float → Bool
  | .finite _ | .negativeZero => true
  | _ => false

end Numbers

inductive Scalar where
  | none
  | bool (value : Bool)
  | int (value : ℤ)
  | float (value : Float)
  | str (value : String)
  | decimal (value : Decimal)
  | date (value : Date)
  | time (value : Time)
  | datetime (value : DateTime)
  deriving DecidableEq

/-- A mapping has texts as keys, a keyed one other keys too. -/
inductive Value where
  | scalar (value : Scalar)
  | list (items : List Value)
  | mapping (entries : List (String × Value))
  /-- The entries before the first key that is not a text, and the least such key as a text. -/
  | keyed (before : List (String × Value)) (least : String)
  /-- Any other object. -/
  | object (str : String)

/-- What Python reads in texts, and the conversions of floats. -/
structure Builtins where
  int : String → Option ℤ
  decimal : String → Option Decimal
  float : Scalar → Option Float
  floatRepr : Float → String
  dateFromisoformat : String → Option Date
  timeFromisoformat : String → Option (Time × Option UtcOffset)
  datetimeFromisoformat : String → Option DateTime

def Builtins.str (builtins : Builtins) : Scalar → String
  | .none => "None"
  | .bool value => if value then "True" else "False"
  | .int value => toString value
  | .float value => builtins.floatRepr value
  | .str value => value
  | .decimal value => value.str
  | .date value => value.isoformat
  | .time value => value.isoformat
  | .datetime value => value.date.isoformat ++ " " ++ value.time.isoformat ++
    match value.utcoffset with
    | some offset => offset.isoformat
    | Option.none => ""

example : (Decimal.finite true 1050 (-2)).str = "-10.50" := by decide +kernel

example : (Decimal.finite true 12 3).fixed = "-12000" := by decide +kernel

example : (DateTime.mk ⟨2024, 2, 29, by decide⟩ ⟨7, 5, 0, 0, by decide⟩
    (some ⟨-18000000000, by decide⟩)).isoformat = "2024-02-29T07:05:00-05:00" := by decide +kernel

end Dander.Python
