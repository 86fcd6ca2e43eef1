import Dander.Identifiers
import Mathlib.Data.Finset.Image
import Mathlib.Data.Finset.Range
import Mathlib.Tactic.Ring

/-!
# Five-field cron expressions and the bounded minute scan

Time is an integer: whole UTC minutes since the epoch, which is all the scheduler
stores, and microseconds since the epoch where a clock is read. A time zone is its UTC offset at each minute;
a candidate minute is projected into the zone before it is matched, so gaps and
folds of local time need no case of their own.
-/
namespace Dander.Schedule

/-- The errors the scheduler distinguishes, with the text each one carries. -/
inductive Failure where
  | scheduleExpression (message : String)
  | scheduleQueue (message : String)
  | overflow
  | database
  deriving Repr, DecidableEq

/-- The first and last minute a `datetime` can hold (years 1 to 9999). -/
def minMinute : ℤ := -1035593280
def maxMinute : ℤ := 4223371679

/-- `datetime + timedelta`, which overflows outside the representable years. -/
def addMinutes (value : ℤ) (delta : ℤ) : Except Failure ℤ :=
  if minMinute ≤ value + delta ∧ value + delta ≤ maxMinute then .ok (value + delta)
  else .error .overflow

def floorUtcMinute (value : ℤ) : ℤ := value / 60000000

/-- The fields of an aware local timestamp that a cron expression reads. -/
structure LocalTime where
  minute : ℕ
  hour : ℕ
  day : ℕ
  month : ℕ
  weekday : ℕ
  deriving Repr, DecidableEq

/-- Year, month and day of a proleptic Gregorian day number, with day 0 on 1970-01-01. -/
def civilDate (days : ℤ) : ℤ × ℕ × ℕ :=
  let shifted := days + 719468
  let dayOfEra := shifted % 146097
  let yearOfEra := (dayOfEra - dayOfEra / 1460 + dayOfEra / 36524 - dayOfEra / 146096) / 365
  let dayOfYear := dayOfEra - (365 * yearOfEra + yearOfEra / 4 - yearOfEra / 100)
  let index := (5 * dayOfYear + 2) / 153
  let month := if index < 10 then index + 3 else index - 9
  (shifted / 146097 * 400 + yearOfEra + (if month ≤ 2 then 1 else 0), month.toNat,
    (dayOfYear - (153 * index + 2) / 5 + 1).toNat)

/-- Splits local wall-clock seconds into the fields of a timestamp. Monday is weekday 0. -/
def localTimeOfSeconds (seconds : ℤ) : LocalTime :=
  let days := seconds / 86400
  let date := civilDate days
  { minute := (seconds / 60 % 60).toNat
    hour := (seconds / 3600 % 24).toNat
    day := date.2.2
    month := date.2.1
    weekday := ((days + 3) % 7).toNat }

/-- An IANA zone: its key and its UTC offset in seconds at each UTC minute. -/
structure ZoneInfo where
  key : String
  utcoffset : ℤ → ℤ

/-- The wall clock of a zone at a UTC minute. -/
def localTime (zone : ZoneInfo) (value : ℤ) : LocalTime :=
  localTimeOfSeconds (60 * value + zone.utcoffset value)

/-- `astimezone`, which overflows where the wall clock leaves the representable years. -/
def astimezone (value : ℤ) (zone : ZoneInfo) : Except Failure LocalTime :=
  let seconds := 60 * value + zone.utcoffset value
  if minMinute ≤ seconds / 60 ∧ seconds / 60 ≤ maxMinute then .ok (localTime zone value)
  else .error .overflow

structure CronField where
  values : Finset ℕ
  unrestricted : Bool
  deriving DecidableEq

structure FiveFieldCron where
  expression : String
  minute : CronField
  hour : CronField
  dayOfMonth : CronField
  month : CronField
  dayOfWeek : CronField
  deriving DecidableEq

/-- Standard cron semantics: two restricted day fields are alternatives. -/
def FiveFieldCron.matchesLocal (cron : FiveFieldCron) (time : LocalTime) : Bool :=
  let cronWeekday := (time.weekday + 1) % 7
  let minuteHourMonth := decide (time.minute ∈ cron.minute.values) &&
    decide (time.hour ∈ cron.hour.values) && decide (time.month ∈ cron.month.values)
  let monthDayMatches := decide (time.day ∈ cron.dayOfMonth.values)
  let weekDayMatches := decide (cronWeekday ∈ cron.dayOfWeek.values)
  if !minuteHourMonth then false
  else if cron.dayOfMonth.unrestricted && cron.dayOfWeek.unrestricted then true
  else if cron.dayOfMonth.unrestricted then weekDayMatches
  else if cron.dayOfWeek.unrestricted then monthDayMatches
  else monthDayMatches || weekDayMatches

/-- Whether the expression selects a UTC minute in its zone. -/
def FiveFieldCron.selects (cron : FiveFieldCron) (zone : ZoneInfo) (value : ℤ) : Bool :=
  cron.matchesLocal (localTime zone value)

section Parsing

def isInteger (text : List Char) : Bool :=
  !text.isEmpty && text.all (fun c => 48 ≤ c.toNat && c.toNat ≤ 57)

/-- `int` of a text of ASCII digits. -/
def intOf (text : List Char) : ℕ := text.foldl (fun n c => 10 * n + (c.toNat - 48)) 0

/-- The values of `range(start, stop, step)` for a positive step. -/
def rangeValues (start stop step : ℕ) : Finset ℕ :=
  (Finset.range stop).filter (fun v => start ≤ v ∧ (v - start) % step = 0)

def splitStep (term : List Char) (label : String) : Except Failure (List Char × ℕ × Bool) :=
  match term.splitOn '/' with
  | [base] =>
    if base.isEmpty then .error (.scheduleExpression s!"The cron {label} field is invalid.")
    else .ok (base, 1, false)
  | [base, step] =>
    if base.isEmpty then .error (.scheduleExpression s!"The cron {label} field is invalid.")
    else if !isInteger step then
      .error (.scheduleExpression s!"The cron {label} step is invalid.")
    else if intOf step < 1 then
      .error (.scheduleExpression s!"The cron {label} step must be positive.")
    else .ok (base, intOf step, true)
  | _ => .error (.scheduleExpression s!"The cron {label} field is invalid.")

def fieldRange (value : List Char) (minimum maximum : ℕ) (label : String)
    (extendSingle : Bool) : Except Failure (ℕ × ℕ) :=
  if value = ['*'] then .ok (minimum, maximum)
  else
    let bounds := value.splitOn '-'
    if bounds.length > 2 || bounds.any (fun bound => !isInteger bound) then
      .error (.scheduleExpression s!"The cron {label} field is invalid.")
    else
      let start := intOf (bounds.headD [])
      let stop := match bounds with
        | [_, last] => intOf last
        | _ => if extendSingle then maximum else start
      if !(minimum ≤ start && start ≤ maximum) || !(minimum ≤ stop && stop ≤ maximum) ||
          start > stop then
        .error (.scheduleExpression s!"The cron {label} field is out of range.")
      else .ok (start, stop)

/-- Adds the values of one term of a comma list. -/
def addTerm (minimum maximum : ℕ) (label : String) (values : Finset ℕ) (term : List Char) :
    Except Failure (Finset ℕ) := do
  let (base, step, stepped) ← splitStep term label
  let (start, stop) ← fieldRange base minimum maximum label stepped
  if step > maximum - minimum + 1 then
    throw (.scheduleExpression s!"The cron {label} step is out of range.")
  return values ∪ rangeValues start (stop + 1) step

def parseField (value : List Char) (minimum maximum : ℕ) (label : String)
    (sundayAlias : Bool) : Except Failure CronField := do
  let terms := value.splitOn ','
  if terms.any List.isEmpty then
    throw (.scheduleExpression s!"The cron {label} field is invalid.")
  let values ← terms.foldlM (addTerm minimum maximum label) ∅
  let values := if sundayAlias && decide (7 ∈ values) then insert 0 (values.erase 7) else values
  return { values := values, unrestricted := decide (value = ['*']) }

def maxExpressionLength : ℕ := 256

/-- Two adjacent spaces somewhere in the text. -/
def hasDoubleSpace : List Char → Bool
  | ' ' :: ' ' :: _ => true
  | _ :: rest => hasDoubleSpace rest
  | [] => false

def parseFiveFieldCron (expression : String) : Except Failure FiveFieldCron := do
  let text := expression.toList
  if text.isEmpty || text.length > maxExpressionLength || hasOuterSpace text ||
      hasDoubleSpace text || text.any (fun c => c = '\t' || c = '\n' || c = '\r') then
    throw (.scheduleExpression
      "A schedule must be a canonical five-field cron expression separated by spaces.")
  match text.splitOn ' ' with
  | [minute, hour, dayOfMonth, month, dayOfWeek] =>
    let minute ← parseField minute 0 59 "minute" false
    let hour ← parseField hour 0 23 "hour" false
    let dayOfMonth ← parseField dayOfMonth 1 31 "day of month" false
    let month ← parseField month 1 12 "month" false
    let dayOfWeek ← parseField dayOfWeek 0 7 "day of week" true
    return ⟨expression, minute, hour, dayOfMonth, month, dayOfWeek⟩
  | _ => throw (.scheduleExpression "The PostgreSQL scheduler accepts exactly five cron fields.")

/-- Resolves a zone key in the time-zone database, after refusing path-like keys. -/
def requireIanaTimeZone (zoneInfo : String → Option ZoneInfo) (name : String) :
    Except Failure ZoneInfo :=
  let text := name.toList
  if text.isEmpty || text.length > 255 || hasOuterSpace text || text.head? = some '/' ||
      (text.splitOn '/').contains ['.', '.'] then
    .error (.scheduleExpression "The schedule time zone must be a valid IANA identifier.")
  else
    match zoneInfo name with
    | some zone => .ok zone
    | none =>
      .error (.scheduleExpression "The schedule time zone must be a valid IANA identifier.")

end Parsing

section Scanning

/-- The scan loop: one candidate minute per unit of fuel. -/
def scanMinutes (schedule : FiveFieldCron) (timeZone : ZoneInfo) (through : ℤ)
    (maxOccurrences : ℤ) : ℕ → ℤ → List ℤ → Except Failure (List ℤ)
  | 0, _, found => .ok found
  | fuel + 1, candidate, found =>
    if candidate ≤ through then do
      let time ← astimezone candidate timeZone
      let found := if schedule.matchesLocal time then found ++ [candidate] else found
      if schedule.matchesLocal time && decide ((found.length : ℤ) > maxOccurrences) then
        throw (.scheduleExpression "The cron scan exceeds its occurrence bound.")
      let next ← addMinutes candidate 1
      scanMinutes schedule timeZone through maxOccurrences fuel next found
    else .ok found

/-- Matching UTC minutes in `(after, through]` within explicit work bounds. -/
def iterScheduleOccurrences (schedule : FiveFieldCron) (timeZone : ZoneInfo)
    (after through : ℤ) (maxMinutes maxOccurrences : ℤ) :
    Except Failure (List ℤ) := do
  if through < after then
    throw (.scheduleExpression "The schedule horizon cannot precede its cursor.")
  if !(1 ≤ maxMinutes && maxMinutes ≤ 525600) then
    throw (.scheduleExpression "The cron scan bound must be 1 to 525600 minutes.")
  if !(1 ≤ maxOccurrences && maxOccurrences ≤ 10000) then
    throw (.scheduleExpression "The occurrence bound must be 1 to 10000.")
  if through - after > maxMinutes then
    throw (.scheduleExpression "The requested cron scan exceeds its bounded horizon.")
  let candidate ← addMinutes after 1
  scanMinutes schedule timeZone through maxOccurrences ((through - after).toNat + 1) candidate []

/-- The minutes of `(after, through]` in increasing order. -/
def minutesBetween (after through : ℤ) : List ℤ :=
  (List.range (through - after).toNat).map (fun i : ℕ => after + 1 + (i : ℤ))

theorem mem_minutesBetween {after through value : ℤ} :
    value ∈ minutesBetween after through ↔ after < value ∧ value ≤ through := by
  simp only [minutesBetween, List.mem_map, List.mem_range]
  constructor
  · rintro ⟨i, hi, rfl⟩
    omega
  · rintro ⟨hlo, hhi⟩
    exact ⟨(value - after - 1).toNat, by omega, by omega⟩

theorem nodup_minutesBetween (after through : ℤ) : (minutesBetween after through).Nodup := by
  refine List.Nodup.map ?_ List.nodup_range
  intro i j hij
  simpa using hij

theorem minutesBetween_append {a b c : ℤ} (hab : a ≤ b) (hbc : b ≤ c) :
    minutesBetween a c = minutesBetween a b ++ minutesBetween b c := by
  have hlen : (c - a).toNat = (b - a).toNat + (c - b).toNat := by omega
  have hstart : ((b - a).toNat : ℤ) = b - a := by omega
  simp only [minutesBetween, hlen, List.range_add, List.map_append, List.map_map]
  congr 1
  refine List.map_congr_left ?_
  intro i _
  simp only [Function.comp_apply]
  push_cast
  omega

theorem minutesBetween_succ {candidate through : ℤ} (h : candidate ≤ through) :
    minutesBetween (candidate - 1) through = candidate :: minutesBetween candidate through := by
  have hlen : (through - (candidate - 1)).toNat = (through - candidate).toNat + 1 := by omega
  simp only [minutesBetween, hlen, List.range_succ_eq_map, List.map_cons, List.map_map]
  refine List.cons_eq_cons.mpr ⟨by simp, ?_⟩
  refine List.map_congr_left ?_
  intro i _
  simp only [Function.comp_apply, Nat.succ_eq_add_one]
  push_cast
  ring

theorem addMinutes_eq_ok {value result : ℤ} {delta : ℤ}
    (h : addMinutes value delta = .ok result) : result = value + delta := by
  unfold addMinutes at h
  split at h
  · exact (Except.ok.inj h).symm
  · cases h

theorem astimezone_eq_ok {value : ℤ} {zone : ZoneInfo} {time : LocalTime}
    (h : astimezone value zone = .ok time) : time = localTime zone value := by
  simp only [astimezone] at h
  split at h
  · exact (Except.ok.inj h).symm
  · cases h

/-- One round of the scan, when it does not raise. -/
theorem scanMinutes_step {schedule : FiveFieldCron} {timeZone : ZoneInfo} {through : ℤ}
    {maxOccurrences : ℤ} {fuel : ℕ} {candidate : ℤ} {found result : List ℤ}
    (hle : candidate ≤ through)
    (h : scanMinutes schedule timeZone through maxOccurrences (fuel + 1) candidate found =
      .ok result) :
    scanMinutes schedule timeZone through maxOccurrences fuel (candidate + 1)
      (found ++ [candidate].filter (schedule.selects timeZone)) = .ok result := by
  simp only [scanMinutes, if_pos hle] at h
  cases htime : astimezone candidate timeZone with
  | error e => rw [htime] at h; cases h
  | ok time =>
    obtain rfl := astimezone_eq_ok htime
    have hfound : (if schedule.matchesLocal (localTime timeZone candidate) then
        found ++ [candidate] else found) =
        found ++ [candidate].filter (schedule.selects timeZone) := by
      by_cases hm : schedule.matchesLocal (localTime timeZone candidate) <;>
        simp [FiveFieldCron.selects, hm]
    rw [htime] at h
    simp only [hfound, bind, Except.bind] at h
    split at h
    · cases h
    · cases hnext : addMinutes candidate 1 with
      | error e => rw [hnext] at h; cases h
      | ok next =>
        obtain rfl := addMinutes_eq_ok hnext
        rw [hnext] at h
        exact h

/-- With fuel for every remaining minute the scan returns exactly the selected ones. -/
theorem scanMinutes_eq_ok {schedule : FiveFieldCron} {timeZone : ZoneInfo} {through : ℤ}
    {maxOccurrences : ℤ} {fuel : ℕ} {candidate : ℤ} {found result : List ℤ}
    (hfuel : (through - candidate + 1).toNat < fuel)
    (h : scanMinutes schedule timeZone through maxOccurrences fuel candidate found =
      .ok result) :
    result = found ++ (minutesBetween (candidate - 1) through).filter
      (schedule.selects timeZone) := by
  induction fuel generalizing candidate found with
  | zero => omega
  | succ fuel ih =>
    by_cases hle : candidate ≤ through
    · have hrest := ih (by omega) (scanMinutes_step hle h)
      rw [hrest, minutesBetween_succ hle]
      simp only [add_sub_cancel_right, List.append_assoc]
      rw [← List.filter_append]
      rfl
    · have hempty : minutesBetween (candidate - 1) through = [] := by
        simp only [minutesBetween, show (through - (candidate - 1)).toNat = 0 by omega,
          List.range_zero, List.map_nil]
      simp only [scanMinutes, if_neg hle] at h
      obtain rfl := Except.ok.inj h
      simp [hempty]

/-- What a scan that does not raise returns, and that it was asked for a forward interval. -/
theorem iterScheduleOccurrences_eq_ok {schedule : FiveFieldCron} {timeZone : ZoneInfo}
    {after through : ℤ} {maxMinutes maxOccurrences : ℤ} {result : List ℤ}
    (h : iterScheduleOccurrences schedule timeZone after through maxMinutes maxOccurrences =
      .ok result) :
    after ≤ through ∧
      result = (minutesBetween after through).filter (schedule.selects timeZone) := by
  simp only [iterScheduleOccurrences, bind, Except.bind] at h
  split at h
  · cases h
  next hforward =>
    split at h
    · cases h
    split at h
    · cases h
    split at h
    · cases h
    cases hfirst : addMinutes after 1 with
    | error e => rw [hfirst] at h; cases h
    | ok first =>
      obtain rfl := addMinutes_eq_ok hfirst
      rw [hfirst] at h
      have hscan := scanMinutes_eq_ok (by omega) h
      refine ⟨by omega, ?_⟩
      simpa using hscan

end Scanning

end Dander.Schedule
