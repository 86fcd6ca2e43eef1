import Dander.BigqueryLoads
import Dander.Dictionaries
import Dander.Identifiers

/-!
# Keys of staged BigQuery rows

The keyed writers keep the last record of each business key before they load a batch. Python
compares the normalized key values; the merge compares the values that the load job read.
-/
namespace Dander.BigqueryKeys

open Python Dander.Runtime
open Dander.Bigquery (Base64Of jsonLoadRow jsonLoadValue encodeScalar)

section Keys

/-- What Python compares and hashes of a scalar: numbers of all types by their value, aware
datetimes by their instant. No two NaNs are equal, but the normalizer returns none. -/
inductive PyKey where
  | none
  | number (value : ℚ)
  | infinite (negative : Bool)
  | nan
  | text (value : String)
  | date (value : Date)
  | time (value : Time)
  | naive (date : Date) (time : Time)
  | instant (value : ℤ)
  deriving DecidableEq

def pyKey : Scalar → PyKey
  | .none => .none
  | .bool value => .number (if value then 1 else 0)
  | .int value => .number value
  | .float (.finite value) => .number value
  | .float .negativeZero => .number 0
  | .float (.infinity negative) | .decimal (.infinity negative) => .infinite negative
  | .float .nan | .decimal .nan => .nan
  | .decimal (.finite negative coefficient exponent) =>
    .number (Decimal.finite negative coefficient exponent).toRat
  | .str value => .text value
  | .date value => .date value
  | .time value => .time value
  | .datetime value =>
    match value.instant with
    | some instant => .instant instant
    | Option.none => .naive value.date value.time

/-- The key of one column, or none where Python cannot hash the value. -/
def keyValue (record : SourceRecord) (column : String) : Option PyKey :=
  match record.lookup column with
  | some (.scalar scalar) => some (pyKey scalar)
  | _ => none

/-- `tuple(row[key] for key in business_key)` -/
def pythonKey (businessKey : List String) (record : SourceRecord) : List (Option PyKey) :=
  businessKey.map (keyValue record)

end Keys

section Writers

structure BigQueryWriteError where
  message : String
  deriving DecidableEq

inductive KeyedWriter where
  | scd1
  | incremental (cursorField : String)
  | scd2

/-- A target, with the columns of its declared schema if it has one. -/
structure WriteTarget where
  businessKey : List String
  declared : List String

/-- The texts that `[A-Za-z_][A-Za-z0-9_]*` matches. -/
def isIdentifier (text : String) : Bool :=
  match text.toList with
  | [] => false
  | first :: rest => (isAlphanumeric first && !first.isDigit || first == '_') &&
    rest.all fun c => isAlphanumeric c || c == '_'

def validatedIdentifier (value label : String) : Except BigQueryWriteError Unit :=
  if isIdentifier value then .ok () else .error ⟨s!"Invalid {label}: '{value}'"⟩

def requireDeclaredColumns (declared columns : List String) (label : String) :
    Except BigQueryWriteError Unit :=
  match columns.find? fun column => decide (declared ≠ [] ∧ column ∉ declared) with
  | some column => .error ⟨s!"Declared schema is missing {label} column '{column}'"⟩
  | none => .ok ()

def requireBatchMatchesDeclared (declared columns : List String) :
    Except BigQueryWriteError Unit := do
  if declared = [] then return
  if let some unknown := (columns.filter fun column => decide (column ∉ declared)).min? then
    throw ⟨s!"Batch column '{unknown}' is undeclared"⟩
  if let some missing := (declared.filter fun column => decide (column ∉ columns)).min? then
    throw ⟨s!"Batch is missing declared column '{missing}'"⟩

/-- `set(row) != expected_columns` -/
def checkColumns (columns : List String) (index : ℕ) (row : SourceRecord) :
    Except BigQueryWriteError Unit :=
  if (∀ column ∈ row.map Prod.fst, column ∈ columns) ∧
      ∀ column ∈ columns, column ∈ row.map Prod.fst then .ok ()
  else .error ⟨s!"Record {index} has a different column set from the first record"⟩

def checkAllColumns (columns : List String) : ℕ → List SourceRecord →
    Except BigQueryWriteError Unit
  | _, [] => .ok ()
  | index, row :: rest => do
    checkColumns columns index row
    checkAllColumns columns (index + 1) rest

def checkBatchColumns (columns : List String) : Except BigQueryWriteError Unit :=
  if columns = [] then .error ⟨"Cannot write records with no columns"⟩ else .ok ()

def checkKeyColumns (columns businessKey : List String) : Except BigQueryWriteError Unit :=
  businessKey.forM fun key => do
    validatedIdentifier key "business-key column"
    if key ∉ columns then
      throw ⟨s!"Business-key column '{key}' is absent from the batch"⟩

/-- The loop over the records. The SCD1 writer checks the columns of each on the way. -/
def deduplicateKeyed (check : ℕ → SourceRecord → Except BigQueryWriteError Unit)
    (businessKey : List String) : ℕ → List (List (Option PyKey) × SourceRecord) →
      List SourceRecord → Except BigQueryWriteError (List (List (Option PyKey) × SourceRecord))
  | _, deduplicated, [] => .ok deduplicated
  | index, deduplicated, row :: rest => do
    check index row
    if some PyKey.none ∈ pythonKey businessKey row then
      throw ⟨s!"Record {index} has a null business-key value"⟩
    if none ∈ pythonKey businessKey row then
      throw ⟨s!"Record {index} has a non-scalar business-key value"⟩
    deduplicateKeyed check businessKey (index + 1)
      (Dictionary.setItem (pythonKey businessKey row) row deduplicated) rest

def scd1Rows (target : WriteTarget) (rows : List SourceRecord) :
    Except BigQueryWriteError (List SourceRecord) := do
  if target.businessKey = [] then
    throw ⟨"SCD1 writes require at least one business-key column"⟩
  requireDeclaredColumns target.declared target.businessKey "business-key"
  match rows with
  | [] => return []
  | first :: _ =>
    let columns := first.map Prod.fst
    checkBatchColumns columns
    requireBatchMatchesDeclared target.declared columns
    columns.forM fun column => validatedIdentifier column "column"
    checkKeyColumns columns target.businessKey
    let deduplicated ← deduplicateKeyed (checkColumns columns) target.businessKey 0 [] rows
    return deduplicated.map Prod.snd

/-- The cursor checks of the incremental writer. -/
def checkCursors (cursorField : String) : ℕ → List SourceRecord → Except BigQueryWriteError Unit
  | _, [] => .ok ()
  | index, row :: rest => do
    match row.lookup cursorField with
    | none => throw ⟨s!"Cursor column '{cursorField}' is absent from record {index}"⟩
    | some (.scalar .none) => throw ⟨s!"Record {index} has a null cursor value"⟩
    | some _ => checkCursors cursorField (index + 1) rest

def systemColumns : List String := ["valid_from", "valid_to", "is_current"]

def scd2Rows (target : WriteTarget) (rows : List SourceRecord) :
    Except BigQueryWriteError (List SourceRecord) := do
  if target.businessKey = [] then
    throw ⟨"SCD2 writes require at least one business-key column"⟩
  match rows with
  | [] => return []
  | first :: _ =>
    let columns := first.map Prod.fst
    checkBatchColumns columns
    columns.forM fun column => validatedIdentifier column "column"
    checkAllColumns columns 0 rows
    if let some collision := (columns.filter fun column => decide (column ∈ systemColumns)).min? then
      throw ⟨s!"SCD2 input uses reserved column '{collision}'"⟩
    checkKeyColumns columns target.businessKey
    let deduplicated ← deduplicateKeyed (fun _ _ => .ok ()) target.businessKey 0 [] rows
    return deduplicated.map Prod.snd

/-- The rows that a writer loads into its staging table. -/
def stagedRows (writer : KeyedWriter) (target : WriteTarget) (rows : List SourceRecord) :
    Except BigQueryWriteError (List SourceRecord) :=
  match writer with
  | .scd1 => scd1Rows target rows
  | .incremental cursorField => do
    checkCursors cursorField 0 rows
    scd1Rows target rows
  | .scd2 => scd2Rows target rows

end Writers

section Deduplication

variable {check : ℕ → SourceRecord → Except BigQueryWriteError Unit} {businessKey : List String}
  {deduplicated result : List (List (Option PyKey) × SourceRecord)}
  {records staged rows : List SourceRecord} {index : ℕ} {target : WriteTarget}

/-- Each entry is a record under its key, and no two have one key. -/
structure Filed (businessKey : List String) (rows : List SourceRecord)
    (entries : List (List (Option PyKey) × SourceRecord)) : Prop where
  nodup : (entries.map Prod.fst).Nodup
  keyed : ∀ entry ∈ entries, entry.1 = pythonKey businessKey entry.2 ∧ entry.2 ∈ rows ∧
    some PyKey.none ∉ entry.1 ∧ none ∉ entry.1
  found : ∀ row ∈ rows, pythonKey businessKey row ∈ entries.map Prod.fst

theorem Filed.nil : Filed businessKey [] [] := ⟨by simp, by simp, by simp⟩

theorem Filed.setItem (h : Filed businessKey rows deduplicated) {row : SourceRecord}
    (hnull : some PyKey.none ∉ pythonKey businessKey row)
    (hscalar : none ∉ pythonKey businessKey row) :
    Filed businessKey (rows ++ [row])
      (Dictionary.setItem (pythonKey businessKey row) row deduplicated) := by
  constructor
  · exact Dictionary.nodup_keys_setItem h.nodup
  · intro entry hentry
    rcases Dictionary.eq_or_mem_of_mem_setItem hentry with rfl | hold
    · exact ⟨rfl, by simp, hnull, hscalar⟩
    · obtain ⟨hkey, hrow, hkept⟩ := h.keyed entry hold
      exact ⟨hkey, List.mem_append_left _ hrow, hkept⟩
  · intro other hother
    rw [Dictionary.mem_keys_setItem]
    rcases List.mem_append.mp hother with hold | hnew
    · exact .inr (h.found other hold)
    · rw [List.mem_singleton.mp hnew]
      exact .inl rfl

theorem deduplicateKeyed_ok (hfiled : Filed businessKey rows deduplicated)
    (h : deduplicateKeyed check businessKey index deduplicated records = .ok result) :
    Filed businessKey (rows ++ records) result := by
  induction records generalizing index rows deduplicated with
  | nil =>
    cases h
    rwa [List.append_nil]
  | cons row rest ih =>
    unfold deduplicateKeyed at h
    obtain ⟨⟨⟩, -, h⟩ := Execution.bind_eq_ok h
    obtain ⟨hnull, h⟩ := Execution.guard_eq_ok h
    obtain ⟨hscalar, h⟩ := Execution.guard_eq_ok h
    have hrest := ih (hfiled.setItem hnull hscalar) h
    rwa [List.append_assoc] at hrest

/-- Whatever the writer, the staged rows are the entries of such a dictionary. -/
theorem stagedRows_ok {writer : KeyedWriter} (h : stagedRows writer target records = .ok staged) :
    ∃ entries, Filed target.businessKey records entries ∧ staged = entries.map Prod.snd := by
  have hscd1 : scd1Rows target records = .ok staged →
      ∃ entries, Filed target.businessKey records entries ∧ staged = entries.map Prod.snd := by
    intro h
    unfold scd1Rows at h
    obtain ⟨-, h⟩ := Execution.guard_eq_ok h
    obtain ⟨⟨⟩, -, h⟩ := Execution.bind_eq_ok h
    cases records with
    | nil =>
      cases h
      exact ⟨[], Filed.nil, rfl⟩
    | cons first rest =>
      obtain ⟨⟨⟩, -, h⟩ := Execution.bind_eq_ok h
      obtain ⟨⟨⟩, -, h⟩ := Execution.bind_eq_ok h
      obtain ⟨⟨⟩, -, h⟩ := Execution.bind_eq_ok h
      obtain ⟨⟨⟩, -, h⟩ := Execution.bind_eq_ok h
      obtain ⟨entries, hentries, h⟩ := Execution.bind_eq_ok h
      cases h
      exact ⟨entries, deduplicateKeyed_ok Filed.nil hentries, rfl⟩
  cases writer with
  | scd1 => exact hscd1 h
  | incremental cursorField =>
    obtain ⟨⟨⟩, -, h⟩ := Execution.bind_eq_ok h
    exact hscd1 h
  | scd2 =>
    change scd2Rows target records = .ok staged at h
    unfold scd2Rows at h
    obtain ⟨-, h⟩ := Execution.guard_eq_ok h
    cases records with
    | nil =>
      cases h
      exact ⟨[], Filed.nil, rfl⟩
    | cons first rest =>
      obtain ⟨⟨⟩, -, h⟩ := Execution.bind_eq_ok h
      obtain ⟨⟨⟩, -, h⟩ := Execution.bind_eq_ok h
      obtain ⟨⟨⟩, -, h⟩ := Execution.bind_eq_ok h
      split at h
      · cases h
      obtain ⟨⟨⟩, -, h⟩ := Execution.bind_eq_ok h
      obtain ⟨entries, hentries, h⟩ := Execution.bind_eq_ok h
      cases h
      exact ⟨entries, deduplicateKeyed_ok Filed.nil hentries, rfl⟩

end Deduplication

section Loads

/-- The value that a column of a type holds for a JSON value, up to the equality of BigQuery, or
none where the load job refuses it. -/
abbrev LoadsOf (W : Type) := ScalarType → Scalar → Option W

variable {W : Type}

/-- What BigQuery documents of the values that it reads. -/
structure Reading (loads : LoadsOf W) : Prop where
  string : ∀ a b v, loads .string (.str a) = some v → loads .string (.str b) = some v → a = b
  bool : ∀ a b v, loads .bool (.bool a) = some v → loads .bool (.bool b) = some v → a = b
  int64 : ∀ a b v, loads .int64 (.int a) = some v → loads .int64 (.int b) = some v → a = b
  float64 : ∀ (a b : Python.Float) v w, a.isFinite = true → b.isFinite = true →
    loads .float64 (.float a) = some v → loads .float64 (.float b) = some w →
      (v = w ↔ pyKey (.float a) = pyKey (.float b))
  numeric : ∀ (a b : Decimal) v w, a.isFinite = true → b.isFinite = true → a.toRat = b.toRat →
    loads .numeric (.str a.fixed) = some v → loads .numeric (.str b.fixed) = some w → v = w
  bignumeric : ∀ (a b : Decimal) v w, a.isFinite = true → b.isFinite = true → a.toRat = b.toRat →
    loads .bignumeric (.str a.fixed) = some v → loads .bignumeric (.str b.fixed) = some w → v = w
  date : ∀ (a b : Date) v, loads .date (.str a.isoformat) = some v →
    loads .date (.str b.isoformat) = some v → a = b
  time : ∀ (a b : Time) v, loads .time (.str a.isoformat) = some v →
    loads .time (.str b.isoformat) = some v → a = b
  datetime : ∀ (a b : DateTime) v, a.utcoffset = none → b.utcoffset = none →
    loads .datetime (.str a.isoformat) = some v →
      loads .datetime (.str b.isoformat) = some v → a = b
  timestamp : ∀ (a b : DateTime) v w, a.utcoffset ≠ none → b.utcoffset ≠ none →
    loads .timestamp (.str a.isoformat) = some v → loads .timestamp (.str b.isoformat) = some w →
      (v = w ↔ a.instant = b.instant)

/-- The type of a scalar column. -/
def columnType (fields : List RawField) (column : String) : Option ScalarType :=
  match fields.find? fun field => field.name = column with
  | some ⟨_, .scalar type, _, _⟩ => some type
  | _ => none

def loadedScalar (loads : LoadsOf W) (type : ScalarType) : Option Value → Option W
  | some (.scalar scalar) => loads type scalar
  | _ => none

/-- What the staging table holds in a column for a record. -/
def loadedValue (loads : LoadsOf W) (base64 : Base64Of) (fields : List RawField)
    (record : SourceRecord) (column : String) : Option W :=
  (columnType fields column).bind fun type =>
    loadedScalar loads type ((jsonLoadRow base64 record).lookup column)

def loadedKey (loads : LoadsOf W) (base64 : Base64Of) (fields : List RawField)
    (businessKey : List String) (record : SourceRecord) : List (Option W) :=
  businessKey.map (loadedValue loads base64 fields record)

/-- The keys of the target after a merge of rows with these keys, or none where a row of the
target matches several of them. -/
def mergeKeys [DecidableEq W] (target source : List (List (Option W))) :
    Option (List (List (Option W))) :=
  if target.any fun key => 1 < source.count key then none
  else some (target ++ source.filter fun key => decide (key ∉ target))

/-- The keys are pairwise different, and a merge of them neither fails nor repeats a key. -/
structure SeenOnce [DecidableEq W] (source : List (List (Option W))) : Prop where
  nodup : source.Nodup
  merges : ∀ target, target.Nodup → ∃ after, mergeKeys target source = some after ∧ after.Nodup

theorem seenOnce_iff [DecidableEq W] {source : List (List (Option W))} :
    SeenOnce source ↔ source.Nodup := by
  refine ⟨SeenOnce.nodup, fun hnodup => ⟨hnodup, ?_⟩⟩
  intro target htarget
  have hcount : target.any (fun key => decide (1 < source.count key)) = false := by
    rw [List.any_eq_false]
    intro key _
    have hone := List.nodup_iff_count_le_one.mp hnodup key
    simp only [decide_eq_true_eq]
    omega
  refine ⟨target ++ source.filter fun key => decide (key ∉ target), ?_, ?_⟩
  · rw [mergeKeys, hcount]
    rfl
  · refine htarget.append (hnodup.filter _) ?_
    intro key hkey hfiltered
    exact of_decide_eq_true (List.mem_filter.mp hfiltered).2 hkey

theorem lookup_jsonLoadRow {base64 : Base64Of} {column : String} (record : SourceRecord) :
    (jsonLoadRow base64 record).lookup column =
      (record.lookup column).map (jsonLoadValue base64) := by
  induction record with
  | nil => rfl
  | cons first rest ih =>
    obtain ⟨key, value⟩ := first
    rw [jsonLoadRow, List.lookup_cons, List.lookup_cons]
    cases column == key with
    | true => rfl
    | false => exact ih

end Loads

section Normalized

variable {W : Type} {loads : LoadsOf W} {builtins : Builtins} {a b scalar normalized : Scalar}
  {type : ScalarType} {v w : W}

/-- The types whose values the normalizer may leave as texts. -/
def textual : ScalarType → Bool
  | .string | .bytes | .geography | .interval | .date | .datetime | .time => true
  | .bool | .int64 | .float64 | .numeric | .bignumeric | .timestamp => false

/-- What the normalizer leaves in a scalar column. -/
inductive Normal : ScalarType → Scalar → Prop
  | text {type : ScalarType} (htextual : textual type = true) (value : String) :
    Normal type (.str value)
  | bool (value : Bool) : Normal .bool (.bool value)
  | int64 (value : ℤ) : Normal .int64 (.int value)
  | float64 (value : Python.Float) (hfinite : value.isFinite = true) :
    Normal .float64 (.float value)
  | numeric (value : Decimal) (hfinite : value.isFinite = true) : Normal .numeric (.decimal value)
  | bignumeric (value : Decimal) (hfinite : value.isFinite = true) :
    Normal .bignumeric (.decimal value)
  | date (value : Date) : Normal .date (.date value)
  | time (value : Time) : Normal .time (.time value)
  | datetime (value : DateTime) (hnaive : value.utcoffset = none) :
    Normal .datetime (.datetime value)
  | timestamp (value : DateTime) (haware : value.utcoffset ≠ none) :
    Normal .timestamp (.datetime value)

theorem normal_of_normalizeScalar (h : normalizeScalar builtins type scalar = some normalized) :
    Normal type normalized := by
  have hint : ∀ value, normalizeInt value = some normalized → Normal .int64 normalized := by
    intro value hvalue
    obtain ⟨number, -, hrest⟩ := Option.bind_eq_some_iff.mp hvalue
    split at hrest <;> cases hrest
    exact .int64 number
  have hdecimal : ∀ text, normalizeDecimal builtins text = some normalized →
      Normal .numeric normalized ∧ Normal .bignumeric normalized := by
    intro text htext
    obtain ⟨number, -, hrest⟩ := Option.bind_eq_some_iff.mp htext
    split at hrest <;> cases hrest
    next hfinite => exact ⟨.numeric number hfinite, .bignumeric number hfinite⟩
  have hfloat : ∀ value, normalizeFloat builtins value = some normalized →
      Normal .float64 normalized := by
    intro value hvalue
    obtain ⟨number, -, hrest⟩ := Option.bind_eq_some_iff.mp hvalue
    split at hrest <;> cases hrest
    next hfinite => exact .float64 number hfinite
  have hnaive : ∀ parsed : DateTime, (if parsed.utcoffset = none then some (Scalar.datetime parsed)
      else none) = some normalized → Normal .datetime normalized := by
    intro parsed hparsed
    split at hparsed <;> cases hparsed
    next hoffset => exact .datetime parsed hoffset
  have haware : ∀ parsed : DateTime, (if parsed.utcoffset = none then none
      else some (Scalar.datetime parsed)) = some normalized → Normal .timestamp normalized := by
    intro parsed hparsed
    split at hparsed <;> cases hparsed
    next hoffset => exact .timestamp parsed hoffset
  unfold normalizeScalar at h
  split at h
  all_goals first
    | exact hint _ h
    | exact (hdecimal _ h).1
    | exact (hdecimal _ h).2
    | exact hfloat _ h
    | exact hnaive _ h
    | exact haware _ h
    | exact Option.some.inj h ▸ .text rfl _
    | exact Option.some.inj h ▸ .bool _
    | exact Option.some.inj h ▸ .date _
    | exact Option.some.inj h ▸ .time _
    | cases h
    | skip
  · obtain ⟨_, -, rfl⟩ := Option.map_eq_some_iff.mp h
    exact .text rfl _
  · obtain ⟨parsed, -, h⟩ := Option.bind_eq_some_iff.mp h
    split at h <;> cases h
    exact .text rfl _
  · obtain ⟨parsed, -, h⟩ := Option.bind_eq_some_iff.mp h
    split at h <;> cases h
    exact .text rfl _
  · obtain ⟨parsed, -, h⟩ := Option.bind_eq_some_iff.mp h
    exact haware parsed h

theorem pyKey_naive {datetime : DateTime} (h : datetime.utcoffset = none) :
    pyKey (.datetime datetime) = .naive datetime.date datetime.time := by
  simp [pyKey, DateTime.instant, h]

theorem pyKey_aware {datetime : DateTime} (h : datetime.utcoffset ≠ none) :
    ∃ instant, datetime.instant = some instant ∧ pyKey (.datetime datetime) = .instant instant := by
  obtain ⟨offset, hoffset⟩ := Option.ne_none_iff_exists'.mp h
  simp [pyKey, DateTime.instant, hoffset]

theorem pyKey_decimal {number : Decimal} (h : number.isFinite = true) :
    pyKey (.decimal number) = .number number.toRat := by
  cases number with
  | finite negative coefficient exponent => rfl
  | infinity negative => cases h
  | nan => cases h

/-- Values that Python holds equal load as equal ones. -/
theorem loads_of_pyKey_eq (hreading : Reading loads) (ha : Normal type a) (hb : Normal type b)
    (hkey : pyKey a = pyKey b) (hv : loads type (encodeScalar a) = some v)
    (hw : loads type (encodeScalar b) = some w) : v = w := by
  have hsame : a = b → v = w := by
    rintro rfl
    rw [hv] at hw
    exact Option.some.inj hw
  cases ha with
  | text htextual value =>
    cases hb with
    | text _ other => exact hsame (by rw [PyKey.text.inj hkey])
    | date other => cases hkey
    | time other => cases hkey
    | datetime other hnaive =>
      rw [pyKey_naive hnaive] at hkey
      cases hkey
    | _ => cases htextual
  | bool value =>
    cases hb with
    | text htextual other => cases htextual
    | bool other =>
      cases value <;> cases other <;> simp [pyKey] at hkey hsame <;> exact hsame
  | int64 value =>
    cases hb with
    | text htextual other => cases htextual
    | int64 other => exact hsame (by rw [Rat.intCast_inj.mp (PyKey.number.inj hkey)])
  | float64 value hvalue =>
    cases hb with
    | text htextual other => cases htextual
    | float64 other hother => exact (hreading.float64 _ _ v w hvalue hother hv hw).mpr hkey
  | numeric value hvalue =>
    cases hb with
    | text htextual other => cases htextual
    | numeric other hother =>
      rw [pyKey_decimal hvalue, pyKey_decimal hother] at hkey
      exact hreading.numeric _ _ v w hvalue hother (PyKey.number.inj hkey) hv hw
  | bignumeric value hvalue =>
    cases hb with
    | text htextual other => cases htextual
    | bignumeric other hother =>
      rw [pyKey_decimal hvalue, pyKey_decimal hother] at hkey
      exact hreading.bignumeric _ _ v w hvalue hother (PyKey.number.inj hkey) hv hw
  | date value =>
    cases hb with
    | text htextual other => cases hkey
    | date other => exact hsame (by rw [PyKey.date.inj hkey])
  | time value =>
    cases hb with
    | text htextual other => cases hkey
    | time other => exact hsame (by rw [PyKey.time.inj hkey])
  | datetime value hvalue =>
    rw [pyKey_naive hvalue] at hkey
    cases hb with
    | text htextual other => cases hkey
    | datetime other hother =>
      rw [pyKey_naive hother, PyKey.naive.injEq] at hkey
      apply hsame
      congr 1
      obtain ⟨date, time, offset⟩ := value
      obtain ⟨date', time', offset'⟩ := other
      obtain rfl : offset = none := hvalue
      obtain rfl : offset' = none := hother
      obtain ⟨rfl, rfl⟩ := hkey
      rfl
  | timestamp value hvalue =>
    cases hb with
    | text htextual other => cases htextual
    | timestamp other hother =>
      obtain ⟨instant, hinstant, hfirst⟩ := pyKey_aware hvalue
      obtain ⟨instant', hinstant', hsecond⟩ := pyKey_aware hother
      rw [hfirst, hsecond] at hkey
      refine (hreading.timestamp _ _ v w hvalue hother hv hw).mpr ?_
      rw [hinstant, hinstant', PyKey.instant.inj hkey]

/-- The types of which BigQuery reads each value in one spelling only, or in spellings that the
normalizer makes one value of. -/
def spelledOnce : ScalarType → Bool
  | .string | .bool | .int64 | .float64 | .timestamp => true
  | _ => false

/-- The types of which it does so for what are not texts. -/
def spelledOnceAsObject : ScalarType → Bool
  | .date | .datetime | .time => true
  | _ => false

/-- A value of a type that the normalizer leaves in one spelling. -/
def OneSpelling (type : ScalarType) (scalar : Scalar) : Prop :=
  spelledOnce type = true ∨ spelledOnceAsObject type = true ∧ ∀ text, scalar ≠ .str text

theorem pyKey_eq_of_loads (hreading : Reading loads) (ha : Normal type a) (hb : Normal type b)
    (hspelled : OneSpelling type a) (hspelled' : OneSpelling type b)
    (hv : loads type (encodeScalar a) = some v) (hw : loads type (encodeScalar b) = some v) :
    pyKey a = pyKey b := by
  cases ha with
  | text htextual value =>
    rcases hspelled with hspelled | ⟨-, hspelled⟩
    · cases type with
      | string =>
        cases hb with
        | text _ other => rw [hreading.string _ _ v hv hw]
      | _ => first | (cases htextual; done) | cases hspelled
    · exact absurd rfl (hspelled value)
  | bool value =>
    cases hb with
    | text htextual other => cases htextual
    | bool other => rw [hreading.bool _ _ v hv hw]
  | int64 value =>
    cases hb with
    | text htextual other => cases htextual
    | int64 other => rw [hreading.int64 _ _ v hv hw]
  | float64 value hvalue =>
    cases hb with
    | text htextual other => cases htextual
    | float64 other hother => exact (hreading.float64 _ _ v v hvalue hother hv hw).mp rfl
  | numeric value hvalue => simp [OneSpelling, spelledOnce, spelledOnceAsObject] at hspelled
  | bignumeric value hvalue => simp [OneSpelling, spelledOnce, spelledOnceAsObject] at hspelled
  | date value =>
    cases hb with
    | text htextual other => simp [OneSpelling, spelledOnce] at hspelled'
    | date other => rw [hreading.date _ _ v hv hw]
  | time value =>
    cases hb with
    | text htextual other => simp [OneSpelling, spelledOnce] at hspelled'
    | time other => rw [hreading.time _ _ v hv hw]
  | datetime value hvalue =>
    cases hb with
    | text htextual other => simp [OneSpelling, spelledOnce] at hspelled'
    | datetime other hother => rw [hreading.datetime _ _ v hvalue hother hv hw]
  | timestamp value hvalue =>
    cases hb with
    | text htextual other => cases htextual
    | timestamp other hother =>
      have hinstant := (hreading.timestamp _ _ v v hvalue hother hv hw).mp rfl
      obtain ⟨instant, hfirst, hkey⟩ := pyKey_aware hvalue
      obtain ⟨instant', hsecond, hkey'⟩ := pyKey_aware hother
      rw [hfirst, hsecond, Option.some.injEq] at hinstant
      rw [hkey, hkey', hinstant]

end Normalized

section Batches

variable {W : Type} {loads : LoadsOf W} {base64 : Base64Of} {builtins : Builtins}
  {fields : List RawField} {column : String} {record row other : SourceRecord}
  {records staged : List SourceRecord} {target : WriteTarget} {writer : KeyedWriter}

/-- A record as the normalizer returns it. -/
def NormalizedRecord (builtins : Builtins) (fields : List RawField) (record : SourceRecord) :
    Prop :=
  ∃ given path, normalizeRecord builtins fields given path = .ok record

def ScalarColumn (fields : List RawField) (column : String) : Prop :=
  ∃ field ∈ fields, field.name = column ∧ ∃ type, field.dataType = .scalar type

/-- The load job takes the key values of the record. -/
def KeyLoaded (loads : LoadsOf W) (base64 : Base64Of) (fields : List RawField)
    (businessKey : List String) (record : SourceRecord) : Prop :=
  ∀ column ∈ businessKey, loadedValue loads base64 fields record column ≠ none

/-- Key values in one spelling each. -/
def SpelledOnce (fields : List RawField) (businessKey : List String)
    (records : List SourceRecord) : Prop :=
  ∀ column ∈ businessKey, ∀ type, columnType fields column = some type → ∀ record ∈ records,
    ∀ scalar, record.lookup column = some (.scalar scalar) → OneSpelling type scalar

theorem columnType_of_mem {field : RawField} {type : ScalarType}
    (hnames : (fields.map RawField.name).Nodup) (hfield : field ∈ fields)
    (htype : field.dataType = .scalar type) : columnType fields field.name = some type := by
  have hfind : fields.find? (fun other => decide (other.name = field.name)) = some field := by
    induction fields with
    | nil => cases hfield
    | cons first rest ih =>
      rw [List.map_cons, List.nodup_cons] at hnames
      rcases List.mem_cons.mp hfield with rfl | hrest
      · exact List.find?_cons_of_pos (by simp)
      · have hne : first.name ≠ field.name := by
          intro heq
          exact hnames.1 (heq ▸ List.mem_map_of_mem hrest)
        rw [List.find?_cons_of_neg (by simpa using hne)]
        exact ih hnames.2 hrest
  obtain ⟨name, dataType, mode, children⟩ := field
  obtain rfl : dataType = .scalar type := htype
  simp only [columnType, hfind]

/-- A key value that is neither null nor unhashable is a normal scalar of the type of its column. -/
theorem exists_normal (hnames : (fields.map RawField.name).Nodup)
    (hcolumn : ScalarColumn fields column) (hnormalized : NormalizedRecord builtins fields record)
    (hnull : keyValue record column ≠ some .none) (hscalar : keyValue record column ≠ none) :
    ∃ type scalar, columnType fields column = some type ∧
      record.lookup column = some (.scalar scalar) ∧ Normal type scalar := by
  obtain ⟨field, hfield, rfl, type, htype⟩ := hcolumn
  obtain ⟨given, path, hrecord⟩ := hnormalized
  obtain ⟨value, hvalue, hlookup⟩ :=
    lookup_normalizeFields (normalizeRecord_eq_ok hrecord) hnames hfield
  rcases normalizeField_scalar htype hvalue with ⟨items, rfl⟩ | rfl | hnormal
  · exact absurd (by rw [keyValue, hlookup]) hscalar
  · exact absurd (by rw [keyValue, hlookup]; rfl) hnull
  · obtain ⟨scalar, normalized, -, hnormal, rfl⟩ := hnormal
    exact ⟨type, normalized, columnType_of_mem hnames hfield htype, hlookup,
      normal_of_normalizeScalar hnormal⟩

theorem loadedValue_eq {type : ScalarType} {scalar : Scalar}
    (htype : columnType fields column = some type)
    (hlookup : record.lookup column = some (.scalar scalar)) :
    loadedValue loads base64 fields record column = loads type (encodeScalar scalar) := by
  rw [loadedValue, htype, lookup_jsonLoadRow, hlookup]
  rfl

theorem keyValue_eq {scalar : Scalar} (hlookup : record.lookup column = some (.scalar scalar)) :
    keyValue record column = some (pyKey scalar) := by
  rw [keyValue, hlookup]

/-- A batch that the writers take: the normalized records with a key that has no null. -/
structure Keyed (builtins : Builtins) (fields : List RawField) (businessKey : List String)
    (records : List SourceRecord) : Prop where
  names : (fields.map RawField.name).Nodup
  columns : ∀ column ∈ businessKey, ScalarColumn fields column
  normalized : ∀ record ∈ records, NormalizedRecord builtins fields record
  null : ∀ record ∈ records, ∀ column ∈ businessKey, keyValue record column ≠ some .none
  scalar : ∀ record ∈ records, ∀ column ∈ businessKey, keyValue record column ≠ none

variable {businessKey : List String}

theorem Keyed.normal (h : Keyed builtins fields businessKey records) (hrecord : record ∈ records)
    (hcolumn : column ∈ businessKey) : ∃ type scalar, columnType fields column = some type ∧
      record.lookup column = some (.scalar scalar) ∧ Normal type scalar :=
  exists_normal h.names (h.columns column hcolumn) (h.normalized record hrecord)
    (h.null record hrecord column hcolumn) (h.scalar record hrecord column hcolumn)

theorem Keyed.loadedKey_eq (h : Keyed builtins fields businessKey records)
    (hreading : Reading loads) (hrow : row ∈ records) (hother : other ∈ records)
    (hloaded : KeyLoaded loads base64 fields businessKey row)
    (hloaded' : KeyLoaded loads base64 fields businessKey other)
    (hkey : pythonKey businessKey row = pythonKey businessKey other) :
    loadedKey loads base64 fields businessKey row =
      loadedKey loads base64 fields businessKey other := by
  apply List.map_congr_left
  intro column hcolumn
  have hvalue := List.map_inj_left.mp hkey column hcolumn
  obtain ⟨type, scalar, htype, hlookup, hnormal⟩ := h.normal hrow hcolumn
  obtain ⟨type', scalar', htype', hlookup', hnormal'⟩ := h.normal hother hcolumn
  rw [htype, Option.some.injEq] at htype'
  subst htype'
  rw [keyValue_eq hlookup, keyValue_eq hlookup', Option.some.injEq] at hvalue
  obtain ⟨v, hv⟩ := Option.ne_none_iff_exists'.mp (hloaded column hcolumn)
  obtain ⟨w, hw⟩ := Option.ne_none_iff_exists'.mp (hloaded' column hcolumn)
  rw [hv, hw]
  rw [loadedValue_eq htype hlookup] at hv
  rw [loadedValue_eq htype hlookup'] at hw
  rw [loads_of_pyKey_eq hreading hnormal hnormal' hvalue hv hw]

theorem Keyed.pythonKey_eq (h : Keyed builtins fields businessKey records)
    (hreading : Reading loads) (hspelled : SpelledOnce fields businessKey records)
    (hrow : row ∈ records) (hother : other ∈ records)
    (hloaded : KeyLoaded loads base64 fields businessKey row)
    (hkey : loadedKey loads base64 fields businessKey row =
      loadedKey loads base64 fields businessKey other) :
    pythonKey businessKey row = pythonKey businessKey other := by
  apply List.map_congr_left
  intro column hcolumn
  have hvalue := List.map_inj_left.mp hkey column hcolumn
  obtain ⟨type, scalar, htype, hlookup, hnormal⟩ := h.normal hrow hcolumn
  obtain ⟨type', scalar', htype', hlookup', hnormal'⟩ := h.normal hother hcolumn
  rw [htype, Option.some.injEq] at htype'
  subst htype'
  obtain ⟨v, hv⟩ := Option.ne_none_iff_exists'.mp (hloaded column hcolumn)
  rw [hv] at hvalue
  rw [loadedValue_eq htype hlookup] at hv
  rw [loadedValue_eq htype hlookup'] at hvalue
  rw [keyValue_eq hlookup, keyValue_eq hlookup',
    pyKey_eq_of_loads hreading hnormal hnormal'
      (hspelled column hcolumn type htype row hrow scalar hlookup)
      (hspelled column hcolumn type htype other hother scalar' hlookup') hv hvalue.symm]

theorem keyed_of_filed {entries : List (List (Option PyKey) × SourceRecord)}
    (hnames : (fields.map RawField.name).Nodup)
    (hcolumns : ∀ column ∈ businessKey, ScalarColumn fields column)
    (hnormalized : ∀ record ∈ records, NormalizedRecord builtins fields record)
    (hfiled : Filed businessKey records entries) : Keyed builtins fields businessKey records := by
  have hkeys : ∀ record ∈ records, some PyKey.none ∉ pythonKey businessKey record ∧
      none ∉ pythonKey businessKey record := by
    intro record hrecord
    obtain ⟨entry, hentry, hkey⟩ := List.mem_map.mp (hfiled.found record hrecord)
    have hkept := (hfiled.keyed entry hentry).2.2
    rwa [hkey] at hkept
  refine ⟨hnames, hcolumns, hnormalized, ?_, ?_⟩
  · intro record hrecord column hcolumn heq
    exact (hkeys record hrecord).1 (List.mem_map.mpr ⟨column, hcolumn, heq⟩)
  · intro record hrecord column hcolumn heq
    exact (hkeys record hrecord).2 (List.mem_map.mpr ⟨column, hcolumn, heq⟩)

/-- The staged keys are seen once just where what BigQuery reads as one key is one for Python. -/
theorem staged_keys [DecidableEq W] (hnames : (fields.map RawField.name).Nodup)
    (hcolumns : ∀ column ∈ target.businessKey, ScalarColumn fields column)
    (hnormalized : ∀ record ∈ records, NormalizedRecord builtins fields record)
    (hreading : Reading loads) (h : stagedRows writer target records = .ok staged)
    (hloaded : ∀ row ∈ staged, KeyLoaded loads base64 fields target.businessKey row) :
    (SeenOnce (staged.map (loadedKey loads base64 fields target.businessKey)) ↔
      ∀ row ∈ records, ∀ other ∈ records,
        KeyLoaded loads base64 fields target.businessKey row →
        loadedKey loads base64 fields target.businessKey row =
          loadedKey loads base64 fields target.businessKey other →
        pythonKey target.businessKey row = pythonKey target.businessKey other) ∧
    (SpelledOnce fields target.businessKey records →
      SeenOnce (staged.map (loadedKey loads base64 fields target.businessKey))) := by
  obtain ⟨entries, hfiled, rfl⟩ := stagedRows_ok h
  have hkeyed := keyed_of_filed hnames hcolumns hnormalized hfiled
  have hiff : SeenOnce ((entries.map Prod.snd).map
        (loadedKey loads base64 fields target.businessKey)) ↔
      ∀ row ∈ records, ∀ other ∈ records,
        KeyLoaded loads base64 fields target.businessKey row →
        loadedKey loads base64 fields target.businessKey row =
          loadedKey loads base64 fields target.businessKey other →
        pythonKey target.businessKey row = pythonKey target.businessKey other := by
    rw [seenOnce_iff, List.map_map]
    constructor
    · intro hnodup row hrow other hother hread heq
      obtain ⟨first, hfirst, hfirstKey⟩ := List.mem_map.mp (hfiled.found row hrow)
      obtain ⟨second, hsecond, hsecondKey⟩ := List.mem_map.mp (hfiled.found other hother)
      have hstaged : ∀ entry ∈ entries, KeyLoaded loads base64 fields target.businessKey entry.2 :=
        fun entry hentry => hloaded entry.2 (List.mem_map_of_mem hentry)
      have hread' : KeyLoaded loads base64 fields target.businessKey other := by
        intro column hcolumn
        rw [← List.map_inj_left.mp heq column hcolumn]
        exact hread column hcolumn
      obtain ⟨hkeyFirst, hmemFirst, -⟩ := hfiled.keyed first hfirst
      obtain ⟨hkeySecond, hmemSecond, -⟩ := hfiled.keyed second hsecond
      have hloadedFirst := hkeyed.loadedKey_eq hreading hmemFirst hrow (hstaged first hfirst) hread
        (hkeyFirst.symm.trans hfirstKey)
      have hloadedSecond := hkeyed.loadedKey_eq hreading hmemSecond hother
        (hstaged second hsecond) hread' (hkeySecond.symm.trans hsecondKey)
      have hsame : first = second := by
        apply List.inj_on_of_nodup_map hnodup hfirst hsecond
        show loadedKey loads base64 fields target.businessKey first.2 = _
        rw [hloadedFirst, heq, ← hloadedSecond]
        rfl
      rw [← hfirstKey, ← hsecondKey, hsame]
    · intro hsame
      refine List.Nodup.map_on ?_ (List.Nodup.of_map _ hfiled.nodup)
      intro first hfirst second hsecond heq
      obtain ⟨hkeyFirst, hmemFirst, -⟩ := hfiled.keyed first hfirst
      obtain ⟨hkeySecond, hmemSecond, -⟩ := hfiled.keyed second hsecond
      apply List.inj_on_of_nodup_map hfiled.nodup hfirst hsecond
      rw [hkeyFirst, hkeySecond]
      exact hsame _ hmemFirst _ hmemSecond (hloaded _ (List.mem_map_of_mem hfirst)) heq
  refine ⟨hiff, ?_⟩
  intro hspelled
  rw [hiff]
  intro row hrow other hother hread heq
  exact hkeyed.pythonKey_eq hreading hspelled hrow hother hread heq

/-- The columns whose JSON values are what they load as. -/
def plainLoads : LoadsOf PyKey
  | .string, .str text => some (pyKey (.str text))
  | .bool, .bool value => some (pyKey (.bool value))
  | .int64, .int value => some (pyKey (.int value))
  | .float64, .float value => some (pyKey (.float value))
  | _, _ => none

theorem reading_plainLoads : Reading plainLoads where
  string a b v ha hb := by
    rw [← ha] at hb
    exact (PyKey.text.inj (Option.some.inj hb)).symm
  bool a b v ha hb := by
    rw [← ha] at hb
    have heq := PyKey.number.inj (Option.some.inj hb)
    cases a <;> cases b <;> simp at heq ⊢
  int64 a b v ha hb := by
    rw [← ha] at hb
    exact (Rat.intCast_inj.mp (PyKey.number.inj (Option.some.inj hb))).symm
  float64 a b v w _ _ ha hb := by
    rw [← Option.some.inj ha, ← Option.some.inj hb]
  numeric a b v w _ _ _ ha hb := by cases ha
  bignumeric a b v w _ _ _ ha hb := by cases ha
  date a b v ha hb := by cases ha
  time a b v ha hb := by cases ha
  datetime a b v _ _ ha hb := by cases ha
  timestamp a b v w _ _ ha hb := by cases ha

def orderColumn : RawField := ⟨"id", .scalar .int64, .required, []⟩

def order (id : ℤ) : SourceRecord := [("id", .scalar (.int id))]

theorem staged_keys_of_integers :
    (SeenOnce ([order 7, order 8].map (loadedKey plainLoads (fun _ => none) [orderColumn] ["id"])) ↔
      ∀ row ∈ [order 7, order 8, order 7], ∀ other ∈ [order 7, order 8, order 7],
        KeyLoaded plainLoads (fun _ => none) [orderColumn] ["id"] row →
        loadedKey plainLoads (fun _ => none) [orderColumn] ["id"] row =
          loadedKey plainLoads (fun _ => none) [orderColumn] ["id"] other →
        pythonKey ["id"] row = pythonKey ["id"] other) ∧
    (SpelledOnce [orderColumn] ["id"] [order 7, order 8, order 7] →
      SeenOnce ([order 7, order 8].map
        (loadedKey plainLoads (fun _ => none) [orderColumn] ["id"]))) := by
  refine @staged_keys PyKey plainLoads (fun _ => none) Bigquery.bareBuiltins [orderColumn]
    [order 7, order 8, order 7] [order 7, order 8] ⟨["id"], []⟩ .scd1 _ ?_ ?_ ?_
    reading_plainLoads ?_ ?_
  · simp
  · intro column hcolumn
    rw [List.mem_singleton.mp hcolumn]
    exact ⟨orderColumn, List.mem_singleton_self _, rfl, .int64, rfl⟩
  · intro record hrecord
    simp only [List.mem_cons, List.not_mem_nil, or_false] at hrecord
    rcases hrecord with rfl | rfl | rfl
    · exact ⟨order 7, "record[0]", rfl⟩
    · exact ⟨order 8, "record[0]", rfl⟩
    · exact ⟨order 7, "record[0]", rfl⟩
  · rfl
  · intro row hrow column hcolumn
    rw [List.mem_singleton.mp hcolumn]
    simp only [List.mem_cons, List.not_mem_nil, or_false] at hrow
    rcases hrow with rfl | rfl <;> simp [loadedValue, columnType, orderColumn, order, jsonLoadRow,
      jsonLoadValue, encodeScalar, loadedScalar, plainLoads]

/-- Midnight, as Python and BigQuery read both texts. -/
def midnightTexts : List String := ["2024-01-01T00:00:00", "2024-01-01 00:00:00"]

def midnight : DateTime := ⟨⟨2024, 1, 1, by decide⟩, ⟨0, 0, 0, 0, by decide⟩, none⟩

def midnightBuiltins : Builtins :=
  { Bigquery.bareBuiltins with
    datetimeFromisoformat := fun text => if text ∈ midnightTexts then some midnight else none }

def midnightLoads : LoadsOf PyKey
  | .datetime, .str text => if text ∈ midnightTexts then some (pyKey (.datetime midnight)) else none
  | type, scalar => plainLoads type scalar

def eventColumn : RawField := ⟨"at", .scalar .datetime, .required, []⟩

def event (text : String) : SourceRecord := [("at", .scalar (.str text))]

/-- Two spellings of one datetime are staged as two rows with one key. -/
theorem midnight_staged_twice :
    (∀ record ∈ midnightTexts.map event, NormalizedRecord midnightBuiltins [eventColumn] record) ∧
    stagedRows .scd1 ⟨["at"], []⟩ (midnightTexts.map event) = .ok (midnightTexts.map event) ∧
    (∀ row ∈ midnightTexts.map event,
      KeyLoaded midnightLoads (fun _ => none) [eventColumn] ["at"] row) ∧
    ¬ SeenOnce ((midnightTexts.map event).map
      (loadedKey midnightLoads (fun _ => none) [eventColumn] ["at"])) := by
  have hvalue : ∀ record ∈ midnightTexts.map event,
      loadedValue midnightLoads (fun _ => none) [eventColumn] record "at" =
        some (pyKey (.datetime midnight)) := by
    intro record hrecord
    obtain ⟨text, htext, rfl⟩ := List.mem_map.mp hrecord
    simp [loadedValue, columnType, eventColumn, event, jsonLoadRow, jsonLoadValue, encodeScalar,
      loadedScalar, midnightLoads, htext]
  refine ⟨?_, rfl, ?_, ?_⟩
  · intro record hrecord
    obtain ⟨text, htext, rfl⟩ := List.mem_map.mp hrecord
    refine ⟨event text, "record[0]", ?_⟩
    simp [normalizeRecord, undeclared, eventColumn, event, normalizeFields, normalizeField,
      normalizeSingle, normalizeScalar, midnightBuiltins, htext, midnight]
    rfl
  · intro row hrow column hcolumn
    rw [List.mem_singleton.mp hcolumn, hvalue row hrow]
    exact Option.some_ne_none _
  · intro h
    have hnodup := h.nodup
    simp only [loadedKey, midnightTexts, List.map_cons, List.map_nil] at hnodup
    have hfirst := hvalue (event "2024-01-01T00:00:00") (by simp [midnightTexts])
    have hsecond := hvalue (event "2024-01-01 00:00:00") (by simp [midnightTexts])
    simp [hfirst, hsecond] at hnodup

end Batches

end Dander.BigqueryKeys
