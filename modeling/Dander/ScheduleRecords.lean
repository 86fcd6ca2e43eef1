import Dander.ScheduleExpression

/-!
# Trigger specifications, wakeups and their canonical text

Canonical records are JSON objects with sorted keys and no blanks; decoding a
wakeup re-encodes what it read and refuses any other text, so only the canonical
layout has to be taken apart.
-/
namespace Dander.Schedule

inductive TriggerKind where
  | api
  | manual
  | schedule
  | dependency
  deriving Repr, DecidableEq

def TriggerKind.value : TriggerKind → String
  | .api => "api"
  | .manual => "manual"
  | .schedule => "schedule"
  | .dependency => "dependency"

/-- A trigger kept apart from the identity of what it executes. -/
structure TriggerSpec where
  triggerId : String
  kind : TriggerKind
  planId : String
  planRevision : String
  enabled : Bool
  schedule : Option String
  timeZone : Option String
  dependency : Option String
  deriving Repr, DecidableEq

/-- One scheduled occurrence; the occurrence is in microseconds. -/
structure ScheduleWakeup where
  triggerId : String
  planRevision : String
  scheduledOccurrence : ℤ
  deriving Repr, DecidableEq

/-- The instant at which a UTC minute starts. -/
def minuteInstant (minute : ℤ) : ℤ := 60000000 * minute

@[simp] theorem minuteInstant_inj {a b : ℤ} : minuteInstant a = minuteInstant b ↔ a = b := by
  unfold minuteInstant
  omega

section CanonicalJson

/-- Lowercase hexadecimal digit. -/
def hexDigit (n : ℕ) : Char := if n < 10 then Char.ofNat (48 + n) else Char.ofNat (87 + n)

/-- One character of a JSON string, as `json.dumps` writes it without `ensure_ascii`. -/
def jsonChar (c : Char) : String :=
  if c = '"' then "\\\""
  else if c = '\\' then "\\\\"
  else if c = '\n' then "\\n"
  else if c = '\r' then "\\r"
  else if c = '\t' then "\\t"
  else if c.toNat = 8 then "\\b"
  else if c.toNat = 12 then "\\f"
  else if c.toNat < 32 then
    "\\u00" ++ String.ofList [hexDigit (c.toNat / 16), hexDigit (c.toNat % 16)]
  else String.singleton c

def jsonString (text : String) : String :=
  "\"" ++ String.join (text.toList.map jsonChar) ++ "\""

/-- The escapes of a character outside ASCII, which `ensure_ascii` adds: one UTF-16 unit,
or a surrogate pair. -/
def jsonUnicodeEscape (n : ℕ) : String :=
  let unit (u : ℕ) := "\\u" ++ String.ofList
    [hexDigit (u / 4096), hexDigit (u / 256 % 16), hexDigit (u / 16 % 16), hexDigit (u % 16)]
  if n < 0x10000 then unit n
  else unit (0xd800 + (n - 0x10000) / 1024) ++ unit (0xdc00 + (n - 0x10000) % 1024)

/-- A JSON string as `json.dumps` writes it by default. -/
def jsonAsciiString (text : String) : String :=
  "\"" ++ String.join (text.toList.map (fun c =>
    if c.toNat < 128 then jsonChar c else jsonUnicodeEscape c.toNat)) ++ "\""

def jsonOptionalString : Option String → String
  | none => "null"
  | some text => jsonString text

def jsonBool (value : Bool) : String := if value then "true" else "false"

/-- An object whose keys are listed in sorted order, with rendered values. -/
def jsonObject (fields : List (String × String)) : String :=
  "\x7b" ++ ",".intercalate (fields.map (fun field => jsonString field.1 ++ ":" ++ field.2)) ++
    "\x7d"

/-- The value of a lowercase hexadecimal digit. -/
def hexValue (c : Char) : ℕ := if c.toNat < 58 then c.toNat - 48 else c.toNat - 87

/-- Reads one character of a JSON string back. -/
def unescape : List Char → Option (Char × List Char)
  | '\\' :: '"' :: rest => some ('"', rest)
  | '\\' :: '\\' :: rest => some ('\\', rest)
  | '\\' :: 'n' :: rest => some ('\n', rest)
  | '\\' :: 'r' :: rest => some ('\r', rest)
  | '\\' :: 't' :: rest => some ('\t', rest)
  | '\\' :: 'b' :: rest => some (Char.ofNat 8, rest)
  | '\\' :: 'f' :: rest => some (Char.ofNat 12, rest)
  | '\\' :: 'u' :: '0' :: '0' :: high :: low :: rest =>
    some (Char.ofNat (16 * hexValue high + hexValue low), rest)
  | c :: rest => some (c, rest)
  | [] => none

theorem hexValue_hexDigit {n : ℕ} (h : n < 16) : hexValue (hexDigit n) = n := by
  have hall : ∀ m : Fin 16, hexValue (hexDigit m) = m := by decide
  exact hall ⟨n, h⟩

theorem unescape_plain {c : Char} (h : c ≠ '\\') (rest : List Char) :
    unescape (c :: rest) = some (c, rest) := by
  unfold unescape
  split <;> simp_all

theorem unescape_jsonChar (c : Char) (rest : List Char) :
    unescape ((jsonChar c).toList ++ rest) = some (c, rest) := by
  unfold jsonChar
  split
  next h => subst h; rfl
  split
  next h => subst h; rfl
  split
  next h => subst h; rfl
  split
  next h => subst h; rfl
  split
  next h => subst h; rfl
  split
  next h =>
    obtain rfl : c = Char.ofNat 8 := by rw [← h, Char.ofNat_toNat]
    rfl
  split
  next h =>
    obtain rfl : c = Char.ofNat 12 := by rw [← h, Char.ofNat_toNat]
    rfl
  split
  next h =>
    have hhigh := hexValue_hexDigit (n := c.toNat / 16) (by omega)
    have hlow := hexValue_hexDigit (n := c.toNat % 16) (by omega)
    have hsum : 16 * (c.toNat / 16) + c.toNat % 16 = c.toNat := by omega
    simp [unescape, hhigh, hlow, hsum, Char.ofNat_toNat]
  next hslash _ _ _ _ _ _ =>
    have hread := unescape_plain hslash rest
    simpa using hread

theorem join_jsonChar_injective {first second : List Char}
    (h : (String.join (first.map jsonChar)).toList = (String.join (second.map jsonChar)).toList) :
    first = second := by
  induction first generalizing second with
  | nil =>
    cases second with
    | nil => rfl
    | cons d rest =>
      have hread := unescape_jsonChar d (String.join (rest.map jsonChar)).toList
      have hempty : (jsonChar d).toList ++ (String.join (rest.map jsonChar)).toList = [] := by
        simpa using h.symm
      rw [hempty] at hread
      cases hread
  | cons c rest ih =>
    have hread := unescape_jsonChar c (String.join (rest.map jsonChar)).toList
    cases second with
    | nil =>
      have hempty : (jsonChar c).toList ++ (String.join (rest.map jsonChar)).toList = [] := by
        simpa using h
      rw [hempty] at hread
      cases hread
    | cons d rest' =>
      have hsame : (jsonChar c).toList ++ (String.join (rest.map jsonChar)).toList =
          (jsonChar d).toList ++ (String.join (rest'.map jsonChar)).toList := by
        simpa using h
      rw [hsame, unescape_jsonChar] at hread
      obtain ⟨rfl, hrest⟩ := Prod.mk.inj (Option.some.inj hread)
      rw [ih hrest.symm]

theorem jsonString_injective : Function.Injective jsonString := by
  intro first second h
  have hlists : (String.join (first.toList.map jsonChar)).toList =
      (String.join (second.toList.map jsonChar)).toList := by
    have h' := congrArg String.toList h
    simpa [jsonString] using h'
  exact String.toList_inj.mp (join_jsonChar_injective hlists)

end CanonicalJson

section Timestamps

/-- A decimal with leading zeros. -/
def padded (width n : ℕ) : String :=
  let digits := toString n
  String.ofList (List.replicate (width - digits.length) '0') ++ digits

/-- A calendar day as `YYYY-MM-DD`. -/
def isoDate (days : ℤ) : String :=
  let date := civilDate days
  padded 4 date.1.toNat ++ "-" ++ padded 2 date.2.1 ++ "-" ++ padded 2 date.2.2

/-- `isoformat` of a UTC instant, up to its offset. -/
def isoInstant (instant : ℤ) : String :=
  let seconds := instant / 1000000
  let micros := (instant % 1000000).toNat
  isoDate (seconds / 86400) ++ "T" ++
    padded 2 (seconds / 3600 % 24).toNat ++ ":" ++ padded 2 (seconds / 60 % 60).toNat ++ ":" ++
    padded 2 (seconds % 60).toNat ++ (if micros = 0 then "" else "." ++ padded 6 micros)

/-- A UTC instant with its offset written as `Z`. -/
def timestamp (instant : ℤ) : String := isoInstant instant ++ "Z"

/-- Day number of a proleptic Gregorian date. -/
def dayNumber (year : ℤ) (month day : ℕ) : ℤ :=
  let shifted := if month ≤ 2 then year - 1 else year
  let era := shifted / 400
  let yearOfEra := shifted % 400
  let index : ℤ := if month > 2 then (month : ℤ) - 3 else (month : ℤ) + 9
  let dayOfYear := (153 * index + 2) / 5 + (day : ℤ) - 1
  era * 146097 + (yearOfEra * 365 + yearOfEra / 4 - yearOfEra / 100 + dayOfYear) - 719468

/-- Reads a timestamp of the canonical layout. Fields out of range are caught by the
caller, which compares the re-encoded record with what it read. -/
def instantOfTimestamp (text : List Char) : Option ℤ :=
  match text with
  | y1 :: y2 :: y3 :: y4 :: '-' :: m1 :: m2 :: '-' :: d1 :: d2 :: 'T' :: h1 :: h2 :: ':' ::
      n1 :: n2 :: ':' :: s1 :: s2 :: rest =>
    let fraction := match rest with
      | ['Z'] => some []
      | '.' :: digits => some (digits.dropLast)
      | _ => none
    match fraction with
    | none => none
    | some micros =>
      if ([y1, y2, y3, y4, m1, m2, d1, d2, h1, h2, n1, n2, s1, s2] ++ micros).all
          (fun c => 48 ≤ c.toNat && c.toNat ≤ 57) then
        let days := dayNumber (intOf [y1, y2, y3, y4]) (intOf [m1, m2]) (intOf [d1, d2])
        some ((((days * 24 + intOf [h1, h2]) * 60 + intOf [n1, n2]) * 60 + intOf [s1, s2]) *
          1000000 + intOf micros)
      else none
  | _ => none

end Timestamps

def triggerSpecSchema : String := "io.dander.control.trigger-spec/v1"
def scheduleWakeupSchema : String := "io.dander.control.schedule-wakeup/v1"
def maxWakeupBytes : ℕ := 8 * 1024

def serializeTriggerSpec (spec : TriggerSpec) : String :=
  jsonObject [
    ("schema", jsonString triggerSpecSchema),
    ("trigger", jsonObject [
      ("dependency", jsonOptionalString spec.dependency),
      ("enabled", jsonBool spec.enabled),
      ("kind", jsonString spec.kind.value),
      ("plan_id", jsonString spec.planId),
      ("plan_revision", jsonString spec.planRevision),
      ("schedule", jsonOptionalString spec.schedule),
      ("time_zone", jsonOptionalString spec.timeZone),
      ("trigger_id", jsonString spec.triggerId)])]

def serializeScheduleWakeup (wakeup : ScheduleWakeup) : String :=
  jsonObject [
    ("plan_revision", jsonString wakeup.planRevision),
    ("scheduled_occurrence", jsonString (timestamp wakeup.scheduledOccurrence)),
    ("schema", jsonString scheduleWakeupSchema),
    ("trigger_id", jsonString wakeup.triggerId)]

/-- What the constructor of a wakeup accepts. -/
def ScheduleWakeup.isValid (wakeup : ScheduleWakeup) : Bool :=
  isPortableId wakeup.triggerId && isSha256 wakeup.planRevision &&
    decide (minMinute ≤ wakeup.scheduledOccurrence / 60000000 ∧
      wakeup.scheduledOccurrence / 60000000 ≤ maxMinute)

/-- Decodes a wakeup and refuses every text but its own canonical encoding. -/
def deserializeScheduleWakeup (data : String) : Option ScheduleWakeup :=
  if data.utf8ByteSize > maxWakeupBytes then none
  else
    match data.toList.splitOn '"' with
    | [_, _, _, planRevision, _, _, _, occurrence, _, _, _, _, _, _, _, triggerId, _] =>
      match instantOfTimestamp occurrence with
      | none => none
      | some instant =>
        let wakeup : ScheduleWakeup :=
          ⟨String.ofList triggerId, String.ofList planRevision, instant⟩
        if wakeup.isValid && serializeScheduleWakeup wakeup = data then some wakeup else none
    | _ => none

end Dander.Schedule
