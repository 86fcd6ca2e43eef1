import Dander.PythonValues

/-!
# Timestamps as texts

Dates and UTC datetimes in the notation of the records, and strict dates read back. Python reads
more spellings of datetimes, with a function that is a parameter.
-/
namespace Dander.Python

section Digits

theorem padded_toList (width n : ℕ) : (padded width n).toList =
    List.replicate (width - (Nat.toDigits 10 n).length) '0' ++ Nat.toDigits 10 n := by
  have hdigits : (toString n).toList = Nat.toDigits 10 n := by simp
  have hlength : (toString n).length = (Nat.toDigits 10 n).length := by
    rw [← hdigits, String.length_toList]
  rw [padded, String.toList_append, String.toList_ofList, hdigits, hlength]

theorem isDigit_padded {width n : ℕ} {c : Char} (h : c ∈ (padded width n).toList) :
    c.isDigit = true := by
  rw [padded_toList, List.mem_append] at h
  rcases h with hzero | hdigit
  · rw [List.eq_of_mem_replicate hzero]
    decide
  · exact Nat.isDigit_of_mem_toDigits (by omega) (by omega) hdigit

theorem length_padded {width n : ℕ} (hwidth : 0 < width) (h : n < 10 ^ width) :
    (padded width n).toList.length = width := by
  have hle := (Nat.length_toDigits_le_iff (n := n) (k := width) (b := 10) (by omega) hwidth).mpr h
  rw [padded_toList, List.length_append, List.length_replicate]
  omega

theorem ofDigitChars_replicate (count : ℕ) (digits : List Char) :
    Nat.ofDigitChars 10 (List.replicate count '0' ++ digits) 0 = Nat.ofDigitChars 10 digits 0 := by
  induction count with
  | zero => rfl
  | succ count ih =>
    rw [List.replicate_succ, List.cons_append, Nat.ofDigitChars_cons]
    exact ih

/-- The number that a padded text is read as. -/
theorem ofDigitChars_padded (width n : ℕ) :
    Nat.ofDigitChars 10 (padded width n).toList 0 = n := by
  rw [padded_toList, ofDigitChars_replicate, Nat.ofDigitChars_ten_toDigits]

theorem not_mem_padded {width n : ℕ} {c : Char} (h : c.isDigit = false) :
    c ∉ (padded width n).toList := by
  intro hmem
  rw [isDigit_padded hmem] at h
  cases h

end Digits

section Dates

instance (year month day : ℕ) : Decidable (1 ≤ year ∧ year ≤ 9999 ∧ 1 ≤ month ∧ month ≤ 12 ∧
    1 ≤ day ∧ day ≤ daysInMonth year month) := inferInstance

/-- `date(year, month, day)` -/
def Date.of (year month day : ℕ) : Option Date :=
  if h : 1 ≤ year ∧ year ≤ 9999 ∧ 1 ≤ month ∧ month ≤ 12 ∧ 1 ≤ day ∧ day ≤ daysInMonth year month
  then some ⟨year, month, day, h⟩
  else none

/-- `date.fromisoformat` of a text of the form `^[0-9]{4}-[0-9]{2}-[0-9]{2}$`, and no other. -/
def strictDate (text : String) : Option Date :=
  match text.toList.splitOn '-' with
  | [year, month, day] =>
    if year.length = 4 ∧ month.length = 2 ∧ day.length = 2 ∧
        (year ++ month ++ day).all Char.isDigit = true then
      Date.of (Nat.ofDigitChars 10 year 0) (Nat.ofDigitChars 10 month 0) (Nat.ofDigitChars 10 day 0)
    else none
  | _ => none

theorem Date.of_self (date : Date) : Date.of date.year date.month date.day = some date := by
  unfold Date.of
  rw [dif_pos date.valid]

theorem Date.isoformat_toList (date : Date) : date.isoformat.toList =
    (padded 4 date.year).toList ++ '-' :: ((padded 2 date.month).toList ++
      '-' :: (padded 2 date.day).toList) := by
  simp [Date.isoformat]

theorem daysInMonth_le (year month : ℕ) : daysInMonth year month ≤ 31 := by
  unfold daysInMonth
  split
  · omega
  · rcases lt_or_ge (month - 1) 12 with hlt | hge
    · interval_cases month - 1 <;> decide
    · rw [List.getD_eq_default _ _ hge]
      omega

theorem Date.bounds (date : Date) : date.year < 10 ^ 4 ∧ date.month < 10 ^ 2 ∧
    date.day < 10 ^ 2 := by
  obtain ⟨-, hyear, -, hmonth, -, hday⟩ := date.valid
  have hdays := daysInMonth_le date.year date.month
  omega

/-- A date is read back from its text. -/
theorem strictDate_isoformat (date : Date) : strictDate date.isoformat = some date := by
  obtain ⟨hyear, hmonth, hday⟩ := date.bounds
  have hdash : ∀ width n, '-' ∉ (padded width n).toList := fun width n => not_mem_padded (by decide)
  have hsplit : date.isoformat.toList.splitOn '-' =
      [(padded 4 date.year).toList, (padded 2 date.month).toList,
        (padded 2 date.day).toList] := by
    rw [Date.isoformat_toList, List.splitOn_append_cons_self_of_not_mem (hdash _ _),
      List.splitOn_append_cons_self_of_not_mem (hdash _ _), List.splitOn_eq_singleton (hdash _ _)]
  have hdigits : ((padded 4 date.year).toList ++ (padded 2 date.month).toList ++
      (padded 2 date.day).toList).all Char.isDigit = true := by
    rw [List.all_eq_true]
    intro c hc
    simp only [List.mem_append] at hc
    rcases hc with (h | h) | h <;> exact isDigit_padded h
  unfold strictDate
  rw [hsplit]
  dsimp only
  rw [if_pos ⟨length_padded (by omega) hyear, length_padded (by omega) hmonth,
    length_padded (by omega) hday, hdigits⟩, ofDigitChars_padded, ofDigitChars_padded,
    ofDigitChars_padded, Date.of_self]

end Dates

section Timestamps

/-- An aware datetime whose UTC offset is zero. -/
def DateTime.isUtc (value : DateTime) : Bool :=
  value.utcoffset.any fun offset => decide (offset.microseconds = 0)

/-- `text.replace("+00:00", "Z")` -/
def replaceUtc : List Char → List Char
  | '+' :: '0' :: '0' :: ':' :: '0' :: '0' :: rest => 'Z' :: replaceUtc rest
  | c :: rest => c :: replaceUtc rest
  | [] => []

/-- `_timestamp` -/
def timestamp (value : DateTime) : String := String.ofList (replaceUtc value.isoformat.toList)

/-- The text of a datetime without its UTC offset. -/
def DateTime.localText (value : DateTime) : List Char :=
  (value.date.isoformat ++ "T" ++ value.time.isoformat).toList

theorem UtcOffset.utc_valid : -86400000000 < (0 : ℤ) ∧ (0 : ℤ) < 86400000000 := by decide

def UtcOffset.utc : UtcOffset := ⟨0, UtcOffset.utc_valid⟩

theorem isoformat_utc : UtcOffset.utc.isoformat = "+00:00" := by decide +kernel

theorem DateTime.isoformat_of_isUtc {value : DateTime} (h : value.isUtc = true) :
    value.isoformat.toList = value.localText ++ "+00:00".toList := by
  obtain ⟨date, time, utcoffset⟩ := value
  cases utcoffset with
  | none => cases h
  | some offset =>
    obtain ⟨microseconds, hvalid⟩ := offset
    obtain rfl : microseconds = 0 := by simpa [DateTime.isUtc] using h
    have hoffset : (UtcOffset.mk 0 hvalid).isoformat = "+00:00" := isoformat_utc
    show (date.isoformat ++ "T" ++ time.isoformat ++ (UtcOffset.mk 0 hvalid).isoformat).toList = _
    rw [hoffset, String.toList_append]
    rfl

theorem plus_not_mem_localText (value : DateTime) : '+' ∉ value.localText := by
  have hplus : ∀ width n, '+' ∉ (padded width n).toList :=
    fun width n => not_mem_padded (by decide)
  have hfraction : '+' ∉ (if value.time.microsecond = 0 then ""
      else "." ++ padded 6 value.time.microsecond).toList := by
    split <;> simp [hplus]
  simp [DateTime.localText, Date.isoformat, Time.isoformat, hplus, hfraction]

theorem replaceUtc_append {first rest : List Char} (h : '+' ∉ first) :
    replaceUtc (first ++ rest) = first ++ replaceUtc rest := by
  induction first with
  | nil => rfl
  | cons c first ih =>
    rw [List.mem_cons, not_or] at h
    rw [List.cons_append, replaceUtc, ih h.2, List.cons_append]
    intro rest' heq
    exact absurd heq.symm h.1

theorem timestamp_of_isUtc {value : DateTime} (h : value.isUtc = true) :
    (timestamp value).toList = value.localText ++ ['Z'] := by
  rw [timestamp, String.toList_ofList, DateTime.isoformat_of_isUtc h,
    replaceUtc_append (plus_not_mem_localText value)]
  rfl

theorem length_localText_le (value : DateTime) : value.localText.length ≤ 26 := by
  obtain ⟨hyear, hmonth, hday⟩ := value.date.bounds
  obtain ⟨hhour, hminute, hsecond, hmicrosecond⟩ := value.time.valid
  have hfraction : (if value.time.microsecond = 0 then ""
      else "." ++ padded 6 value.time.microsecond).toList.length ≤ 7 := by
    split
    · decide
    · rw [String.toList_append, List.length_append, length_padded (by omega) (by omega)]
      decide
  have hlength : ∀ n < 10 ^ 2, (padded 2 n).toList.length = 2 :=
    fun n hn => length_padded (by omega) hn
  have htime : value.time.isoformat.toList.length ≤ 15 := by
    simp only [Time.isoformat, String.toList_append, List.length_append,
      hlength value.time.hour (by omega), hlength value.time.minute (by omega),
      hlength value.time.second (by omega)]
    have hcolon : ":".toList.length = 1 := by decide
    omega
  have hdate : value.date.isoformat.toList.length = 10 := by
    rw [Date.isoformat_toList]
    simp only [List.length_append, List.length_cons, length_padded (by omega) hyear,
      hlength _ hmonth, hlength _ hday]
  have hletter : "T".toList.length = 1 := by decide
  simp only [DateTime.localText, String.toList_append, List.length_append, hdate, hletter]
  omega

end Timestamps

end Dander.Python
