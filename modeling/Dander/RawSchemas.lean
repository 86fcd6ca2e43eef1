import Dander.Execution
import Dander.PipelineRunner
import Dander.PythonValues

/-!
# Raw schemas

A connector endpoint may declare the complete schema of its relation. The runner normalizes each
record against it: undeclared fields and values of another type are refused with the path of the
field, absent values become nulls and empty lists, and scalars become values of their type.
-/
namespace Dander.Runtime

open Python

inductive ScalarType where
  | string
  | bytes
  | geography
  | interval
  | bool
  | int64
  | float64
  | numeric
  | bignumeric
  | date
  | datetime
  | time
  | timestamp
  deriving DecidableEq

def ScalarType.name : ScalarType → String
  | .string => "STRING"
  | .bytes => "BYTES"
  | .geography => "GEOGRAPHY"
  | .interval => "INTERVAL"
  | .bool => "BOOL"
  | .int64 => "INT64"
  | .float64 => "FLOAT64"
  | .numeric => "NUMERIC"
  | .bignumeric => "BIGNUMERIC"
  | .date => "DATE"
  | .datetime => "DATETIME"
  | .time => "TIME"
  | .timestamp => "TIMESTAMP"

inductive DataType where
  | scalar (type : ScalarType)
  | record
  | json
  deriving DecidableEq

inductive FieldMode where
  | nullable
  | required
  | repeated
  deriving DecidableEq

structure RawField where
  name : String
  dataType : DataType
  mode : FieldMode
  fields : List RawField

abbrev SourceRecord := List (String × Value)

section Scalars

variable (builtins : Builtins)

/-- `value.replace("Z", "+00:00")` -/
def replaceZ (text : String) : String :=
  String.ofList (text.toList.flatMap fun c => if c = 'Z' then "+00:00".toList else [c])

def normalizeInt (value : Option ℤ) : Option Scalar :=
  value.bind fun number =>
    if -2 ^ 63 ≤ number ∧ number < 2 ^ 63 then some (.int number) else none

def normalizeDecimal (text : String) : Option Scalar :=
  (builtins.decimal text).bind fun number =>
    if number.isFinite then some (.decimal number) else none

def normalizeFloat (value : Scalar) : Option Scalar :=
  (builtins.float value).bind fun number =>
    if number.isFinite then some (.float number) else none

/-- The value of a scalar field, or none where Python raises. -/
def normalizeScalar : ScalarType → Scalar → Option Scalar
  | .string, .str text | .bytes, .str text | .geography, .str text | .interval, .str text =>
    some (.str text)
  | .bool, .bool value => some (.bool value)
  | .int64, .int number => normalizeInt (some number)
  | .int64, .str text => normalizeInt (builtins.int text)
  | .float64, .str text => normalizeFloat builtins (.str text)
  | .float64, .int number => normalizeFloat builtins (.int number)
  | .float64, .float number => normalizeFloat builtins (.float number)
  | .float64, .decimal number => normalizeFloat builtins (.decimal number)
  | .numeric, .str text | .bignumeric, .str text => normalizeDecimal builtins text
  | .numeric, .int number | .bignumeric, .int number =>
    normalizeDecimal builtins (builtins.str (.int number))
  | .numeric, .float number | .bignumeric, .float number =>
    normalizeDecimal builtins (builtins.str (.float number))
  | .numeric, .decimal number | .bignumeric, .decimal number =>
    normalizeDecimal builtins (builtins.str (.decimal number))
  | .date, .str text => (builtins.dateFromisoformat text).map fun _ => .str text
  | .date, .date date => some (.date date)
  | .datetime, .str text => (builtins.datetimeFromisoformat text).bind fun parsed =>
    if parsed.utcoffset = none then some (.str text) else none
  | .datetime, .datetime parsed =>
    if parsed.utcoffset = none then some (.datetime parsed) else none
  | .time, .str text => (builtins.timeFromisoformat text).bind fun parsed =>
    if parsed.2 = none then some (.str text) else none
  | .time, .time time => some (.time time)
  | .timestamp, .str text => (builtins.datetimeFromisoformat (replaceZ text)).bind fun parsed =>
    if parsed.utcoffset = none then none else some (.datetime parsed)
  | .timestamp, .datetime parsed =>
    if parsed.utcoffset = none then none else some (.datetime parsed)
  | _, _ => none

end Scalars

section Documents

mutual

def validateJsonValue (path : String) : Value → Except RunError Unit
  | .scalar .none | .scalar (.str _) | .scalar (.int _) | .scalar (.bool _) => .ok ()
  | .scalar (.float number) =>
    if number.isFinite then .ok () else .error (.rawSchema s!"Invalid JSON field at {path}")
  | .list items => validateJsonItems path 0 items
  | .mapping entries => validateJsonEntries path entries
  | .keyed before _ => do
    validateJsonEntries path before
    .error (.rawSchema s!"Invalid JSON object key at {path}")
  | _ => .error (.rawSchema s!"Invalid JSON field at {path}")

def validateJsonItems (path : String) (index : ℕ) : List Value → Except RunError Unit
  | [] => .ok ()
  | item :: rest => do
    validateJsonValue s!"{path}[{index}]" item
    validateJsonItems path (index + 1) rest

def validateJsonEntries (path : String) : List (String × Value) → Except RunError Unit
  | [] => .ok ()
  | (key, item) :: rest => do
    validateJsonValue s!"{path}.{key}" item
    validateJsonEntries path rest

end

end Documents

section Records

variable (builtins : Builtins)

/-- The first of the undeclared fields in the order of their names. -/
def undeclared (fields : List RawField) (record : SourceRecord) : Option String :=
  ((record.map Prod.fst).filter fun name => decide (name ∉ fields.map RawField.name)).min?

/-- The items of a repeated field, each normalized as a value of its own. -/
def normalizeItems (single : Value → String → Except RunError Value) (path : String) :
    ℕ → List Value → Except RunError (List Value)
  | _, [] => .ok []
  | index, .scalar .none :: _ =>
    .error (.rawSchema s!"Repeated field item is null at {path}[{index}]")
  | index, item :: rest => do
    let normalized ← single item s!"{path}[{index}]"
    let others ← normalizeItems single path (index + 1) rest
    return normalized :: others

/-- What a field holds instead of an absent value or a null. -/
def absentValue (mode : FieldMode) (path : String) : Except RunError Value :=
  match mode with
  | .required => .error (.rawSchema s!"Required field is missing or null at {path}")
  | .repeated => .ok (.list [])
  | .nullable => .ok (.scalar .none)

def normalizeField (mode : FieldMode) (single : Value → String → Except RunError Value)
    (path : String) : Option Value → Except RunError Value
  | none | some (.scalar .none) => absentValue mode path
  | some value =>
    match mode, value with
    | .repeated, .list items => (normalizeItems single path 0 items).map .list
    | .repeated, _ => .error (.rawSchema s!"Repeated field must be a list at {path}")
    | _, value => single value path

mutual

/-- A value of a field that is not repeated. -/
def normalizeSingle : RawField → Value → String → Except RunError Value
  | ⟨_, .record, _, fields⟩, .mapping entries, path =>
    match undeclared fields entries with
    | some name => .error (.rawSchema s!"Undeclared field at {path}.{name}")
    | none => (normalizeFields fields entries path).map .mapping
  | ⟨_, .record, _, _⟩, .keyed _ least, path =>
    .error (.rawSchema s!"Undeclared field at {path}.{least}")
  | ⟨_, .record, _, _⟩, _, path =>
    .error (.rawSchema s!"Record field must be an object at {path}")
  | ⟨_, .json, _, _⟩, value, path => do
    validateJsonValue path value
    return value
  | ⟨_, .scalar _, _, _⟩, .mapping _, path | ⟨_, .scalar _, _, _⟩, .keyed _ _, path
  | ⟨_, .scalar _, _, _⟩, .list _, path =>
    .error (.rawSchema s!"Scalar field has a structured value at {path}")
  | ⟨_, .scalar type, _, _⟩, .scalar value, path =>
    match normalizeScalar builtins type value with
    | some normalized => .ok (.scalar normalized)
    | none => .error (.rawSchema s!"Invalid {type.name} field at {path}")
  | ⟨_, .scalar type, _, _⟩, .object _, path =>
    .error (.rawSchema s!"Invalid {type.name} field at {path}")

def normalizeFields : List RawField → SourceRecord → String → Except RunError SourceRecord
  | [], _, _ => .ok []
  | field :: rest, record, path => do
    let value ← normalizeField field.mode (normalizeSingle field) s!"{path}.{field.name}"
      (record.lookup field.name)
    let others ← normalizeFields rest record path
    return (field.name, value) :: others

end

def normalizeRecord (fields : List RawField) (record : SourceRecord) (path : String) :
    Except RunError SourceRecord :=
  match undeclared fields record with
  | some name => .error (.rawSchema s!"Undeclared field at {path}.{name}")
  | none => normalizeFields builtins fields record path

end Records

section Lookups

variable {builtins : Builtins} {fields : List RawField} {record out : SourceRecord} {path : String}
  {field : RawField}

theorem fst_normalizeFields (h : normalizeFields builtins fields record path = .ok out) :
    out.map Prod.fst = fields.map RawField.name := by
  induction fields generalizing out with
  | nil =>
    cases h
    rfl
  | cons first rest ih =>
    obtain ⟨value, -, h⟩ := Execution.bind_eq_ok h
    obtain ⟨others, hothers, h⟩ := Execution.bind_eq_ok h
    cases h
    simp [ih hothers]

/-- A declared field holds the normalized value of the field. -/
theorem lookup_normalizeFields (h : normalizeFields builtins fields record path = .ok out)
    (hnames : (fields.map RawField.name).Nodup) (hfield : field ∈ fields) :
    ∃ value, normalizeField field.mode (normalizeSingle builtins field)
        s!"{path}.{field.name}" (record.lookup field.name) = .ok value ∧
      out.lookup field.name = some value := by
  induction fields generalizing out with
  | nil => cases hfield
  | cons first rest ih =>
    obtain ⟨value, hvalue, h⟩ := Execution.bind_eq_ok h
    obtain ⟨others, hothers, h⟩ := Execution.bind_eq_ok h
    cases h
    rw [List.map_cons, List.nodup_cons] at hnames
    rcases List.mem_cons.mp hfield with rfl | hrest
    · exact ⟨value, hvalue, by simp⟩
    · obtain ⟨found, hfound, hlookup⟩ := ih hothers hnames.2 hrest
      have hne : field.name ≠ first.name := by
        intro heq
        exact hnames.1 (heq ▸ List.mem_map_of_mem hrest)
      refine ⟨found, hfound, ?_⟩
      rw [List.lookup_cons, beq_false_of_ne hne]
      exact hlookup

theorem normalizeRecord_eq_ok (h : normalizeRecord builtins fields record path = .ok out) :
    normalizeFields builtins fields record path = .ok out := by
  unfold normalizeRecord at h
  split at h
  · cases h
  · exact h

/-- A scalar field holds a list, a null, or the normalized value of a scalar. -/
theorem normalizeField_scalar {type : ScalarType} {entry : Option Value} {value : Value}
    (htype : field.dataType = .scalar type)
    (h : normalizeField field.mode (normalizeSingle builtins field) path entry = .ok value) :
    (∃ items, value = .list items) ∨ value = .scalar .none ∨
      ∃ scalar normalized, entry = some (.scalar scalar) ∧
        normalizeScalar builtins type scalar = some normalized ∧ value = .scalar normalized := by
  obtain ⟨name, dataType, mode, fields⟩ := field
  obtain rfl : dataType = .scalar type := htype
  have habsent : ∀ value, absentValue mode path = .ok value →
      (∃ items, value = Value.list items) ∨ value = .scalar .none := by
    intro value habsent
    cases mode with
    | nullable =>
      cases habsent
      exact .inr rfl
    | required => cases habsent
    | repeated =>
      cases habsent
      exact .inl ⟨[], rfl⟩
  have hsingle : ∀ scalar, normalizeSingle builtins ⟨name, .scalar type, mode, fields⟩
      (.scalar scalar) path = .ok value → ∃ normalized,
        normalizeScalar builtins type scalar = some normalized ∧ value = .scalar normalized := by
    intro scalar hsingle
    unfold normalizeSingle at hsingle
    split at hsingle
    next normalized hnormalized =>
      cases hsingle
      exact ⟨normalized, hnormalized, rfl⟩
    next => cases hsingle
  unfold normalizeField at h
  dsimp only at h
  split at h
  · exact (habsent value h).imp_right .inl
  · exact (habsent value h).imp_right .inl
  next given hnone =>
    have hpresent : (mode = .repeated ∧ ∃ items, value = .list items) ∨
        normalizeSingle builtins ⟨name, .scalar type, mode, fields⟩ given path = .ok value := by
      cases mode with
      | nullable => exact .inr h
      | required => exact .inr h
      | repeated =>
        cases given with
        | list items =>
          cases hitems : normalizeItems
              (normalizeSingle builtins ⟨name, .scalar type, .repeated, fields⟩) path 0 items with
          | error e => simp [hitems, Except.map] at h
          | ok normalized =>
            simp only [hitems, Except.map] at h
            cases h
            exact .inl ⟨rfl, normalized, rfl⟩
        | scalar scalar => cases h
        | mapping entries => cases h
        | keyed before least => cases h
        | object str => cases h
    rcases hpresent with ⟨-, hlist⟩ | hvalue
    · exact .inl hlist
    · cases given with
      | scalar scalar =>
        obtain ⟨normalized, hnormalized, rfl⟩ := hsingle scalar hvalue
        exact .inr (.inr ⟨scalar, normalized, rfl, hnormalized, rfl⟩)
      | list items => cases hvalue
      | mapping entries => cases hvalue
      | keyed before least => cases hvalue
      | object str => cases hvalue

end Lookups

end Dander.Runtime
