import Dander.RawSchemas

/-!
# Conformance to raw schemas

What a record must be for its raw schema, said without the normalizer. The normalizer takes the
records that conform and no others, its results conform, and it leaves them as they are.
-/
namespace Dander.Runtime

open Python

section Conformance

/-- A declaration as `RawField` accepts it, at any depth. -/
inductive RawField.Declared : RawField → Prop
  | intro {field : RawField} (nested : field.dataType = .record ↔ field.fields ≠ [])
    (names_unique : (field.fields.map RawField.name).Nodup)
    (fields : ∀ child ∈ field.fields, child.Declared) : field.Declared

/-- The raw schema of an endpoint. -/
structure RawSchema where
  fields : List RawField
  names_unique : (fields.map RawField.name).Nodup
  declared : ∀ field ∈ fields, field.Declared

/-- A JSON document: its numbers are finite and its keys are texts. -/
inductive Json : Value → Prop
  | none : Json (.scalar .none)
  | bool (value : Bool) : Json (.scalar (.bool value))
  | int (value : ℤ) : Json (.scalar (.int value))
  | float (value : Python.Float) (hfinite : value.isFinite = true) : Json (.scalar (.float value))
  | str (value : String) : Json (.scalar (.str value))
  | list (items : List Value) (hitems : ∀ item ∈ items, Json item) : Json (.list items)
  | mapping (entries : List (String × Value)) (hentries : ∀ entry ∈ entries, Json entry.2) :
    Json (.mapping entries)

variable (builtins : Builtins)

/-- A number or a text. -/
inductive Numeral : Scalar → Prop
  | int (value : ℤ) : Numeral (.int value)
  | float (value : Python.Float) : Numeral (.float value)
  | decimal (value : Decimal) : Numeral (.decimal value)
  | str (value : String) : Numeral (.str value)

/-- A scalar has a value of the type, within the range of the type. -/
inductive Convertible : ScalarType → Scalar → Prop
  | string (text : String) : Convertible .string (.str text)
  | bytes (text : String) : Convertible .bytes (.str text)
  | geography (text : String) : Convertible .geography (.str text)
  | interval (text : String) : Convertible .interval (.str text)
  | bool (value : Bool) : Convertible .bool (.bool value)
  | int64 {number : ℤ} (hrange : -2 ^ 63 ≤ number ∧ number < 2 ^ 63) :
    Convertible .int64 (.int number)
  | int64_text {text : String} {number : ℤ} (hread : builtins.int text = some number)
    (hrange : -2 ^ 63 ≤ number ∧ number < 2 ^ 63) : Convertible .int64 (.str text)
  | float64 {value : Scalar} {number : Python.Float} (hkind : Numeral value)
    (hread : builtins.float value = some number) (hfinite : number.isFinite = true) :
    Convertible .float64 value
  | numeric {value : Scalar} {number : Decimal} (hkind : Numeral value)
    (hread : builtins.decimal (builtins.str value) = some number)
    (hfinite : number.isFinite = true) : Convertible .numeric value
  | bignumeric {value : Scalar} {number : Decimal} (hkind : Numeral value)
    (hread : builtins.decimal (builtins.str value) = some number)
    (hfinite : number.isFinite = true) : Convertible .bignumeric value
  | date (date : Date) : Convertible .date (.date date)
  | date_text {text : String} {date : Date}
    (hread : builtins.dateFromisoformat text = some date) : Convertible .date (.str text)
  | datetime {datetime : DateTime} (hnaive : datetime.utcoffset = none) :
    Convertible .datetime (.datetime datetime)
  | datetime_text {text : String} {datetime : DateTime}
    (hread : builtins.datetimeFromisoformat text = some datetime)
    (hnaive : datetime.utcoffset = none) : Convertible .datetime (.str text)
  | time (time : Time) : Convertible .time (.time time)
  | time_text {text : String} {time : Time}
    (hread : builtins.timeFromisoformat text = some (time, none)) : Convertible .time (.str text)
  | timestamp {datetime : DateTime} (haware : datetime.utcoffset ≠ none) :
    Convertible .timestamp (.datetime datetime)
  | timestamp_text {text : String} {datetime : DateTime}
    (hread : builtins.datetimeFromisoformat (replaceZ text) = some datetime)
    (haware : datetime.utcoffset ≠ none) : Convertible .timestamp (.str text)

mutual

/-- A value, or an item of a repeated field, that is present. -/
inductive ValueConforms : RawField → Value → Prop
  | record {name : String} {mode : FieldMode} {fields : List RawField}
    {entries : List (String × Value)} (h : RecordConforms fields entries) :
    ValueConforms ⟨name, .record, mode, fields⟩ (.mapping entries)
  | json {name : String} {mode : FieldMode} {fields : List RawField} {value : Value}
    (h : Json value) : ValueConforms ⟨name, .json, mode, fields⟩ value
  | scalar {name : String} {type : ScalarType} {mode : FieldMode} {fields : List RawField}
    {value : Scalar} (h : Convertible builtins type value) :
    ValueConforms ⟨name, .scalar type, mode, fields⟩ (.scalar value)

/-- What a record holds in a field, or none where it lacks the field. -/
inductive FieldConforms : RawField → Option Value → Prop
  | missing {field : RawField} (hmode : field.mode ≠ .required) : FieldConforms field none
  | null {field : RawField} (hmode : field.mode ≠ .required) :
    FieldConforms field (some (.scalar .none))
  | repeated {field : RawField} {items : List Value} (hmode : field.mode = .repeated)
    (hnulls : ∀ item ∈ items, item ≠ .scalar .none)
    (hitems : ∀ item ∈ items, ValueConforms field item) : FieldConforms field (some (.list items))
  | single {field : RawField} {value : Value} (hmode : field.mode ≠ .repeated)
    (hnull : value ≠ .scalar .none) (hvalue : ValueConforms field value) :
    FieldConforms field (some value)

/-- No entry is undeclared, and each declared field holds what it may. -/
inductive RecordConforms : List RawField → SourceRecord → Prop
  | intro {fields : List RawField} {record : SourceRecord}
    (hdeclared : ∀ entry ∈ record, entry.1 ∈ fields.map RawField.name)
    (hfields : ∀ field ∈ fields, FieldConforms field (record.lookup field.name)) :
    RecordConforms fields record

end

end Conformance

section Documents

mutual

theorem validateJsonValue_iff : ∀ (value : Value) (path : String),
    validateJsonValue path value = .ok () ↔ Json value
  | .scalar scalar, path => by
    cases scalar with
    | none => exact ⟨fun _ => .none, fun _ => rfl⟩
    | bool value => exact ⟨fun _ => .bool value, fun _ => rfl⟩
    | int value => exact ⟨fun _ => .int value, fun _ => rfl⟩
    | str value => exact ⟨fun _ => .str value, fun _ => rfl⟩
    | float number =>
      rw [validateJsonValue]
      constructor
      · intro h
        split at h
        next hfinite => exact .float number hfinite
        next => cases h
      · rintro ⟨⟩
        rename_i hfinite
        rw [if_pos hfinite]
    | decimal number => exact ⟨nofun, nofun⟩
    | date date => exact ⟨nofun, nofun⟩
    | time time => exact ⟨nofun, nofun⟩
    | datetime datetime => exact ⟨nofun, nofun⟩
  | .list items, path => by
    rw [validateJsonValue, validateJsonItems_iff items path 0]
    constructor
    · exact .list items
    · rintro ⟨⟩
      assumption
  | .mapping entries, path => by
    rw [validateJsonValue, validateJsonEntries_iff entries path]
    constructor
    · exact .mapping entries
    · rintro ⟨⟩
      assumption
  | .keyed before least, path => by
    constructor
    · intro h
      obtain ⟨-, -, herror⟩ := Execution.bind_eq_ok h
      cases herror
    · nofun
  | .object text, path => ⟨nofun, nofun⟩

theorem validateJsonItems_iff : ∀ (items : List Value) (path : String) (index : ℕ),
    validateJsonItems path index items = .ok () ↔ ∀ item ∈ items, Json item
  | [], _, _ => ⟨fun _ => nofun, fun _ => rfl⟩
  | item :: rest, path, index => by
    rw [List.forall_mem_cons, ← validateJsonValue_iff item s!"{path}[{index}]",
      ← validateJsonItems_iff rest path (index + 1)]
    constructor
    · intro h
      obtain ⟨⟨⟩, hitem, hrest⟩ := Execution.bind_eq_ok h
      exact ⟨hitem, hrest⟩
    · rintro ⟨hitem, hrest⟩
      rw [validateJsonItems, hitem]
      exact hrest

theorem validateJsonEntries_iff : ∀ (entries : List (String × Value)) (path : String),
    validateJsonEntries path entries = .ok () ↔ ∀ entry ∈ entries, Json entry.2
  | [], _ => ⟨fun _ => nofun, fun _ => rfl⟩
  | (key, item) :: rest, path => by
    rw [List.forall_mem_cons, ← validateJsonValue_iff item s!"{path}.{key}",
      ← validateJsonEntries_iff rest path]
    constructor
    · intro h
      obtain ⟨⟨⟩, hitem, hrest⟩ := Execution.bind_eq_ok h
      exact ⟨hitem, hrest⟩
    · rintro ⟨hitem, hrest⟩
      rw [validateJsonEntries, hitem]
      exact hrest

end

end Documents

section Scalars

variable {builtins : Builtins} {type : ScalarType} {value normalized : Scalar}

theorem normalizeInt_eq_some {number : Option ℤ} :
    normalizeInt number = some normalized ↔
      ∃ found, number = some found ∧ (-2 ^ 63 ≤ found ∧ found < 2 ^ 63) ∧
        normalized = .int found := by
  constructor
  · intro h
    obtain ⟨found, hfound, h⟩ := Option.bind_eq_some_iff.mp h
    split at h
    next hrange => exact ⟨found, hfound, hrange, (Option.some.inj h).symm⟩
    next => cases h
  · rintro ⟨found, rfl, hrange, rfl⟩
    exact if_pos hrange

theorem normalizeDecimal_eq_some {text : String} :
    normalizeDecimal builtins text = some normalized ↔
      ∃ number, builtins.decimal text = some number ∧ number.isFinite = true ∧
        normalized = .decimal number := by
  constructor
  · intro h
    obtain ⟨number, hnumber, h⟩ := Option.bind_eq_some_iff.mp h
    split at h
    next hfinite => exact ⟨number, hnumber, hfinite, (Option.some.inj h).symm⟩
    next => cases h
  · rintro ⟨number, hnumber, hfinite, rfl⟩
    rw [normalizeDecimal, hnumber, Option.bind_some, if_pos hfinite]

theorem normalizeFloat_eq_some :
    normalizeFloat builtins value = some normalized ↔
      ∃ number, builtins.float value = some number ∧ number.isFinite = true ∧
        normalized = .float number := by
  constructor
  · intro h
    obtain ⟨number, hnumber, h⟩ := Option.bind_eq_some_iff.mp h
    split at h
    next hfinite => exact ⟨number, hnumber, hfinite, (Option.some.inj h).symm⟩
    next => cases h
  · rintro ⟨number, hnumber, hfinite, rfl⟩
    rw [normalizeFloat, hnumber, Option.bind_some, if_pos hfinite]

theorem normalizeScalar_float64 (hkind : Numeral value) :
    normalizeScalar builtins .float64 value = normalizeFloat builtins value := by
  cases hkind <;> rfl

theorem normalizeScalar_numeric (hkind : Numeral value)
    (htype : type = .numeric ∨ type = .bignumeric) :
    normalizeScalar builtins type value = normalizeDecimal builtins (builtins.str value) := by
  rcases htype with rfl | rfl <;> cases hkind <;> rfl

theorem convertible_of_normalizeScalar (h : normalizeScalar builtins type value = some normalized) :
    Convertible builtins type value := by
  have hfloat : Numeral value → normalizeFloat builtins value = some normalized →
      Convertible builtins .float64 value := by
    intro hkind hvalue
    obtain ⟨number, hread, hfinite, -⟩ := normalizeFloat_eq_some.mp hvalue
    exact .float64 hkind hread hfinite
  have hdecimal : Numeral value → normalizeDecimal builtins (builtins.str value) = some normalized →
      Convertible builtins .numeric value ∧ Convertible builtins .bignumeric value := by
    intro hkind hvalue
    obtain ⟨number, hread, hfinite, -⟩ := normalizeDecimal_eq_some.mp hvalue
    exact ⟨.numeric hkind hread hfinite, .bignumeric hkind hread hfinite⟩
  unfold normalizeScalar at h
  split at h
  · exact .string _
  · exact .bytes _
  · exact .geography _
  · exact .interval _
  · exact .bool _
  · obtain ⟨number, hnumber, hrange, -⟩ := normalizeInt_eq_some.mp h
    cases hnumber
    exact .int64 hrange
  · obtain ⟨number, hnumber, hrange, -⟩ := normalizeInt_eq_some.mp h
    exact .int64_text hnumber hrange
  · exact hfloat (.str _) h
  · exact hfloat (.int _) h
  · exact hfloat (.float _) h
  · exact hfloat (.decimal _) h
  · exact (hdecimal (.str _) h).1
  · exact (hdecimal (.str _) h).2
  · exact (hdecimal (.int _) h).1
  · exact (hdecimal (.int _) h).2
  · exact (hdecimal (.float _) h).1
  · exact (hdecimal (.float _) h).2
  · exact (hdecimal (.decimal _) h).1
  · exact (hdecimal (.decimal _) h).2
  · obtain ⟨date, hread, -⟩ := Option.map_eq_some_iff.mp h
    exact .date_text hread
  · exact .date _
  · obtain ⟨datetime, hread, h⟩ := Option.bind_eq_some_iff.mp h
    split at h
    next hnaive => exact .datetime_text hread hnaive
    next => cases h
  · split at h
    next hnaive => exact .datetime hnaive
    next => cases h
  · obtain ⟨⟨time, offset⟩, hread, h⟩ := Option.bind_eq_some_iff.mp h
    split at h
    next hnaive =>
      obtain rfl : offset = none := hnaive
      exact .time_text hread
    next => cases h
  · exact .time _
  · obtain ⟨datetime, hread, h⟩ := Option.bind_eq_some_iff.mp h
    split at h
    next => cases h
    next haware => exact .timestamp_text hread haware
  · split at h
    next => cases h
    next haware => exact .timestamp haware
  · cases h

/-- The value of a scalar that is convertible. -/
theorem normalizeScalar_of_convertible (h : Convertible builtins type value) :
    ∃ normalized, normalizeScalar builtins type value = some normalized := by
  cases h with
  | string text => exact ⟨_, rfl⟩
  | bytes text => exact ⟨_, rfl⟩
  | geography text => exact ⟨_, rfl⟩
  | interval text => exact ⟨_, rfl⟩
  | bool value => exact ⟨_, rfl⟩
  | int64 hrange => exact ⟨_, normalizeInt_eq_some.mpr ⟨_, rfl, hrange, rfl⟩⟩
  | int64_text hread hrange => exact ⟨_, normalizeInt_eq_some.mpr ⟨_, hread, hrange, rfl⟩⟩
  | float64 hkind hread hfinite =>
    rw [normalizeScalar_float64 hkind]
    exact ⟨_, normalizeFloat_eq_some.mpr ⟨_, hread, hfinite, rfl⟩⟩
  | numeric hkind hread hfinite =>
    rw [normalizeScalar_numeric hkind (.inl rfl)]
    exact ⟨_, normalizeDecimal_eq_some.mpr ⟨_, hread, hfinite, rfl⟩⟩
  | bignumeric hkind hread hfinite =>
    rw [normalizeScalar_numeric hkind (.inr rfl)]
    exact ⟨_, normalizeDecimal_eq_some.mpr ⟨_, hread, hfinite, rfl⟩⟩
  | date date => exact ⟨_, rfl⟩
  | @date_text text date hread => exact ⟨.str text, by rw [normalizeScalar, hread, Option.map_some]⟩
  | datetime hnaive => exact ⟨_, if_pos hnaive⟩
  | @datetime_text text datetime hread hnaive =>
    exact ⟨.str text, by rw [normalizeScalar, hread, Option.bind_some, if_pos hnaive]⟩
  | time time => exact ⟨_, rfl⟩
  | @time_text text time hread =>
    exact ⟨.str text, by rw [normalizeScalar, hread, Option.bind_some, if_pos rfl]⟩
  | timestamp haware => exact ⟨_, if_neg haware⟩
  | @timestamp_text text datetime hread haware =>
    exact ⟨.datetime datetime, by rw [normalizeScalar, hread, Option.bind_some, if_neg haware]⟩

/-- What Python documents of its numbers: a float is itself, and a decimal is what its text
reads as. -/
structure NumbersReadBack (builtins : Builtins) : Prop where
  float : ∀ value number, builtins.float value = some number → number.isFinite = true →
    builtins.float (.float number) = some number
  decimal : ∀ text number, builtins.decimal text = some number → number.isFinite = true →
    builtins.decimal number.str = some number

/-- A normalized scalar is the value of its type that it has. -/
theorem normalizeScalar_normalized (hreads : NumbersReadBack builtins)
    (h : normalizeScalar builtins type value = some normalized) :
    normalizeScalar builtins type normalized = some normalized ∧ normalized ≠ .none := by
  have hint : ∀ number, normalizeInt number = some normalized →
      normalizeScalar builtins .int64 normalized = some normalized ∧ normalized ≠ .none := by
    intro number hnumber
    obtain ⟨found, -, hrange, rfl⟩ := normalizeInt_eq_some.mp hnumber
    exact ⟨normalizeInt_eq_some.mpr ⟨found, rfl, hrange, rfl⟩, nofun⟩
  have hfloat : ∀ given, normalizeFloat builtins given = some normalized →
      normalizeScalar builtins .float64 normalized = some normalized ∧ normalized ≠ .none := by
    intro given hgiven
    obtain ⟨number, hread, hfinite, rfl⟩ := normalizeFloat_eq_some.mp hgiven
    have hself := hreads.float given number hread hfinite
    exact ⟨normalizeFloat_eq_some.mpr ⟨number, hself, hfinite, rfl⟩, nofun⟩
  have hdecimal : ∀ text, normalizeDecimal builtins text = some normalized →
      (type = .numeric ∨ type = .bignumeric) →
      normalizeScalar builtins type normalized = some normalized ∧ normalized ≠ .none := by
    intro text htext htype
    obtain ⟨number, hread, hfinite, rfl⟩ := normalizeDecimal_eq_some.mp htext
    have hself := hreads.decimal text number hread hfinite
    rw [normalizeScalar_numeric (.decimal number) htype]
    exact ⟨normalizeDecimal_eq_some.mpr ⟨number, hself, hfinite, rfl⟩, nofun⟩
  have hsame : normalized = value → value ≠ .none →
      normalizeScalar builtins type normalized = some normalized ∧ normalized ≠ .none := by
    rintro rfl hnone
    exact ⟨h, hnone⟩
  have haware : ∀ datetime : DateTime, (if datetime.utcoffset = none then none
      else some (Scalar.datetime datetime)) = some normalized →
      normalizeScalar builtins .timestamp normalized = some normalized ∧ normalized ≠ .none := by
    intro datetime hdatetime
    split at hdatetime
    next => cases hdatetime
    next hoffset =>
      cases hdatetime
      exact ⟨if_neg hoffset, nofun⟩
  cases convertible_of_normalizeScalar h with
  | string text => exact hsame (Option.some.inj h).symm nofun
  | bytes text => exact hsame (Option.some.inj h).symm nofun
  | geography text => exact hsame (Option.some.inj h).symm nofun
  | interval text => exact hsame (Option.some.inj h).symm nofun
  | bool value => exact hsame (Option.some.inj h).symm nofun
  | int64 hrange => exact hint _ h
  | int64_text hread hrange => exact hint _ h
  | float64 hkind hread hfinite => exact hfloat _ (normalizeScalar_float64 hkind ▸ h)
  | numeric hkind hread hfinite =>
    exact hdecimal _ (normalizeScalar_numeric hkind (.inl rfl) ▸ h) (.inl rfl)
  | bignumeric hkind hread hfinite =>
    exact hdecimal _ (normalizeScalar_numeric hkind (.inr rfl) ▸ h) (.inr rfl)
  | date date => exact hsame (Option.some.inj h).symm nofun
  | date_text hread =>
    rw [normalizeScalar, hread, Option.map_some] at h
    exact hsame (Option.some.inj h).symm nofun
  | datetime hnaive =>
    rw [normalizeScalar, if_pos hnaive] at h
    exact hsame (Option.some.inj h).symm nofun
  | datetime_text hread hnaive =>
    rw [normalizeScalar, hread, Option.bind_some, if_pos hnaive] at h
    exact hsame (Option.some.inj h).symm nofun
  | time time => exact hsame (Option.some.inj h).symm nofun
  | time_text hread =>
    rw [normalizeScalar, hread, Option.bind_some, if_pos rfl] at h
    exact hsame (Option.some.inj h).symm nofun
  | timestamp hoffset => exact haware _ h
  | timestamp_text hread hoffset =>
    rw [normalizeScalar, hread, Option.bind_some] at h
    exact haware _ h

end Scalars

section Items

variable {single : Value → String → Except RunError Value} {path : String}
  {conforms : Value → Prop}

/-- A normalizer of values that takes those that conform. -/
def Accepts (single : Value → String → Except RunError Value) (conforms : Value → Prop) : Prop :=
  ∀ value path, (∃ normalized, single value path = .ok normalized) ↔ conforms value

/-- A normalizer of values that leaves its results, which are nulls only for nulls. -/
structure Settles (single : Value → String → Except RunError Value) : Prop where
  present : ∀ value path, value ≠ .scalar .none → single value path ≠ .ok (.scalar .none)
  again : ∀ value path normalized, single value path = .ok normalized →
    ∀ again, single normalized again = .ok normalized

theorem normalizeItems_ok_cons {item normalized : Value} {rest others : List Value} {index : ℕ}
    (hnull : item ≠ .scalar .none) (hitem : single item s!"{path}[{index}]" = .ok normalized)
    (hrest : normalizeItems single path (index + 1) rest = .ok others) :
    normalizeItems single path index (item :: rest) = .ok (normalized :: others) := by
  unfold normalizeItems
  split
  · next hnil => cases hnil
  · next hcons =>
    cases hcons
    exact absurd rfl hnull
  · next hcons =>
    cases hcons
    rw [hitem, Execution.ok_bind, hrest]
    rfl

theorem of_normalizeItems_cons {item : Value} {rest normalized : List Value} {index : ℕ}
    (h : normalizeItems single path index (item :: rest) = .ok normalized) :
    item ≠ .scalar .none ∧ ∃ first others, single item s!"{path}[{index}]" = .ok first ∧
      normalizeItems single path (index + 1) rest = .ok others ∧ normalized = first :: others := by
  unfold normalizeItems at h
  split at h
  · next hnil => cases hnil
  · cases h
  · next hnull hcons =>
    cases hcons
    obtain ⟨first, hfirst, h⟩ := Execution.bind_eq_ok h
    obtain ⟨others, hothers, h⟩ := Execution.bind_eq_ok h
    cases h
    exact ⟨fun heq => hnull heq, first, others, hfirst, hothers, rfl⟩

theorem normalizeItems_iff (haccepts : Accepts single conforms) (items : List Value) (index : ℕ) :
    (∃ normalized, normalizeItems single path index items = .ok normalized) ↔
      (∀ item ∈ items, item ≠ .scalar .none) ∧ ∀ item ∈ items, conforms item := by
  induction items generalizing index with
  | nil => exact ⟨fun _ => ⟨nofun, nofun⟩, fun _ => ⟨[], rfl⟩⟩
  | cons item rest ih =>
    rw [List.forall_mem_cons, List.forall_mem_cons]
    constructor
    · rintro ⟨normalized, h⟩
      obtain ⟨hnull, first, others, hfirst, hothers, -⟩ := of_normalizeItems_cons h
      obtain ⟨hnulls, hitems⟩ := (ih (index + 1)).mp ⟨others, hothers⟩
      exact ⟨⟨hnull, hnulls⟩, (haccepts item _).mp ⟨first, hfirst⟩, hitems⟩
    · rintro ⟨⟨hnull, hnulls⟩, hitem, hitems⟩
      obtain ⟨first, hfirst⟩ := (haccepts item s!"{path}[{index}]").mpr hitem
      obtain ⟨others, hothers⟩ := (ih (index + 1)).mpr ⟨hnulls, hitems⟩
      exact ⟨first :: others, normalizeItems_ok_cons hnull hfirst hothers⟩

theorem normalizeItems_normalized (hsettles : Settles single) {items normalized : List Value}
    {index : ℕ} (h : normalizeItems single path index items = .ok normalized) (again : String)
    (index' : ℕ) : normalizeItems single again index' normalized = .ok normalized := by
  induction items generalizing index index' normalized with
  | nil =>
    cases h
    rfl
  | cons item rest ih =>
    obtain ⟨hnull, first, others, hfirst, hothers, rfl⟩ := of_normalizeItems_cons h
    have hpresent : first ≠ .scalar .none := by
      rintro rfl
      exact hsettles.present item _ hnull hfirst
    exact normalizeItems_ok_cons hpresent (hsettles.again item _ first hfirst _)
      (ih hothers (index' + 1))

end Items

section Fields

variable {builtins : Builtins} {field : RawField} {path : String}

theorem absentValue_iff {mode : FieldMode} :
    (∃ normalized, absentValue mode path = .ok normalized) ↔ mode ≠ .required := by
  cases mode with
  | nullable => exact ⟨fun _ => nofun, fun _ => ⟨_, rfl⟩⟩
  | required => exact ⟨nofun, fun h => absurd rfl h⟩
  | repeated => exact ⟨fun _ => nofun, fun _ => ⟨_, rfl⟩⟩

theorem normalizeField_single {mode : FieldMode} {single : Value → String → Except RunError Value}
    {value : Value} (hmode : mode ≠ .repeated) (hnull : value ≠ .scalar .none) :
    normalizeField mode single path (some value) = single value path := by
  unfold normalizeField
  split
  · next hnone => cases hnone
  · next hnone => exact absurd (Option.some.inj hnone) hnull
  · next found _ hfound =>
    cases hfound
    cases mode with
    | nullable => rfl
    | required => rfl
    | repeated => exact absurd rfl hmode

theorem normalizeField_repeated {single : Value → String → Except RunError Value} {value : Value}
    (hnull : value ≠ .scalar .none) {normalized : Value} :
    normalizeField .repeated single path (some value) = .ok normalized ↔
      ∃ items results, value = .list items ∧ normalizeItems single path 0 items = .ok results ∧
        normalized = .list results := by
  cases value with
  | list items =>
    show (normalizeItems single path 0 items).map Value.list = .ok normalized ↔ _
    constructor
    · intro h
      cases hresults : normalizeItems single path 0 items with
      | ok results =>
        rw [hresults] at h
        cases h
        exact ⟨items, results, rfl, hresults, rfl⟩
      | error error =>
        rw [hresults] at h
        cases h
    · rintro ⟨found, results, hfound, hresults, rfl⟩
      cases hfound
      rw [hresults]
      rfl
  | scalar scalar =>
    cases scalar with
    | none => exact absurd rfl hnull
    | _ => exact ⟨nofun, nofun⟩
  | mapping entries => exact ⟨nofun, nofun⟩
  | keyed before least => exact ⟨nofun, nofun⟩
  | object text => exact ⟨nofun, nofun⟩

theorem normalizeField_iff
    (haccepts : Accepts (normalizeSingle builtins field) (ValueConforms builtins field))
    (entry : Option Value) :
    (∃ normalized, normalizeField field.mode (normalizeSingle builtins field) path entry =
      .ok normalized) ↔ FieldConforms builtins field entry := by
  rcases entry with - | value
  · show (∃ normalized, absentValue field.mode path = .ok normalized) ↔ _
    rw [absentValue_iff]
    constructor
    · exact .missing
    · rintro ⟨⟩
      assumption
  · by_cases hnull : value = .scalar .none
    · subst hnull
      show (∃ normalized, absentValue field.mode path = .ok normalized) ↔ _
      rw [absentValue_iff]
      constructor
      · exact .null
      · intro h
        cases h with
        | null hmode => exact hmode
        | single hmode hnull hvalue => exact absurd rfl hnull
    · by_cases hmode : field.mode = .repeated
      · simp only [hmode, normalizeField_repeated hnull]
        constructor
        · rintro ⟨normalized, items, results, rfl, hresults, -⟩
          obtain ⟨hnulls, hitems⟩ := (normalizeItems_iff haccepts items 0).mp ⟨results, hresults⟩
          exact .repeated hmode hnulls hitems
        · intro h
          cases h with
          | null => exact absurd rfl hnull
          | @repeated _ items _ hnulls hitems =>
            obtain ⟨results, hresults⟩ :=
              (@normalizeItems_iff _ path _ haccepts items 0).mpr ⟨hnulls, hitems⟩
            exact ⟨.list results, items, results, rfl, hresults, rfl⟩
          | single hsingle => exact absurd hmode hsingle
      · rw [normalizeField_single hmode hnull, haccepts value path]
        constructor
        · exact .single hmode hnull
        · intro h
          cases h with
          | null => exact absurd rfl hnull
          | repeated hrepeated => exact absurd hrepeated hmode
          | single _ _ hvalue => exact hvalue

theorem normalizeField_normalized {mode : FieldMode}
    {single : Value → String → Except RunError Value} (hsettles : Settles single)
    {entry : Option Value} {normalized : Value}
    (h : normalizeField mode single path entry = .ok normalized) (again : String) :
    normalizeField mode single again (some normalized) = .ok normalized := by
  have habsent : absentValue mode path = .ok normalized →
      normalizeField mode single again (some normalized) = .ok normalized := by
    intro habsent
    cases mode with
    | nullable =>
      cases habsent
      rfl
    | required => cases habsent
    | repeated =>
      cases habsent
      rfl
  rcases entry with - | value
  · exact habsent h
  · by_cases hnull : value = .scalar .none
    · subst hnull
      exact habsent h
    · by_cases hmode : mode = .repeated
      · subst hmode
        obtain ⟨items, results, rfl, hresults, rfl⟩ := (normalizeField_repeated hnull).mp h
        have hlist : Value.list results ≠ .scalar .none := nofun
        exact (normalizeField_repeated hlist).mpr
          ⟨results, results, rfl, normalizeItems_normalized hsettles hresults again 0, rfl⟩
      · rw [normalizeField_single hmode hnull] at h
        have hpresent : normalized ≠ .scalar .none := by
          rintro rfl
          exact hsettles.present value path hnull h
        rw [normalizeField_single hmode hpresent]
        exact hsettles.again value path normalized h again

end Fields

section Records

variable {builtins : Builtins} {fields : List RawField} {record out : SourceRecord} {path : String}

theorem undeclared_eq_none_iff :
    undeclared fields record = none ↔ ∀ entry ∈ record, entry.1 ∈ fields.map RawField.name := by
  rw [undeclared, List.min?_eq_none_iff, List.filter_eq_nil_iff]
  constructor
  · intro h entry hentry
    have hname := h entry.1 (List.mem_map_of_mem hentry)
    simpa using hname
  · intro h name hname
    obtain ⟨entry, hentry, rfl⟩ := List.mem_map.mp hname
    simpa using h entry hentry

theorem normalizeRecord_ok_iff :
    normalizeRecord builtins fields record path = .ok out ↔
      (∀ entry ∈ record, entry.1 ∈ fields.map RawField.name) ∧
        normalizeFields builtins fields record path = .ok out := by
  rw [← undeclared_eq_none_iff, normalizeRecord]
  cases undeclared fields record with
  | none => exact ⟨fun h => ⟨rfl, h⟩, fun h => h.2⟩
  | some name => exact ⟨nofun, nofun⟩

theorem normalizeSingle_record {name : String} {mode : FieldMode} {value normalized : Value} :
    normalizeSingle builtins ⟨name, .record, mode, fields⟩ value path = .ok normalized ↔
      ∃ entries out, value = .mapping entries ∧
        normalizeRecord builtins fields entries path = .ok out ∧ normalized = .mapping out := by
  cases value with
  | mapping entries =>
    rw [normalizeSingle]
    constructor
    · intro h
      cases hundeclared : undeclared fields entries with
      | some found =>
        rw [hundeclared] at h
        cases h
      | none =>
        rw [hundeclared] at h
        cases hfields : normalizeFields builtins fields entries path with
        | error error =>
          rw [hfields] at h
          cases h
        | ok out =>
          rw [hfields] at h
          cases h
          exact ⟨entries, out, rfl,
            normalizeRecord_ok_iff.mpr ⟨undeclared_eq_none_iff.mp hundeclared, hfields⟩, rfl⟩
    · rintro ⟨found, out, hfound, h, rfl⟩
      cases hfound
      obtain ⟨hdeclared, hfields⟩ := normalizeRecord_ok_iff.mp h
      rw [undeclared_eq_none_iff.mpr hdeclared, hfields]
      rfl
  | scalar scalar => simp [normalizeSingle]
  | list items => simp [normalizeSingle]
  | keyed before least => simp [normalizeSingle]
  | object text => simp [normalizeSingle]

theorem normalizeSingle_json {name : String} {mode : FieldMode} {value normalized : Value} :
    normalizeSingle builtins ⟨name, .json, mode, fields⟩ value path = .ok normalized ↔
      Json value ∧ normalized = value := by
  rw [normalizeSingle, ← validateJsonValue_iff value path]
  constructor
  · intro h
    obtain ⟨⟨⟩, hvalid, h⟩ := Execution.bind_eq_ok h
    cases h
    exact ⟨hvalid, rfl⟩
  · rintro ⟨hvalid, rfl⟩
    rw [hvalid]
    rfl

theorem normalizeSingle_scalar {name : String} {mode : FieldMode} {type : ScalarType}
    {value normalized : Value} :
    normalizeSingle builtins ⟨name, .scalar type, mode, fields⟩ value path = .ok normalized ↔
      ∃ scalar found, value = .scalar scalar ∧
        normalizeScalar builtins type scalar = some found ∧ normalized = .scalar found := by
  cases value with
  | scalar scalar =>
    rw [normalizeSingle]
    constructor
    · intro h
      split at h
      next found hfound =>
        cases h
        exact ⟨scalar, found, rfl, hfound, rfl⟩
      next => cases h
    · rintro ⟨given, found, hgiven, hfound, rfl⟩
      cases hgiven
      rw [hfound]
  | list items => simp [normalizeSingle]
  | mapping entries => simp [normalizeSingle]
  | keyed before least => simp [normalizeSingle]
  | object text => simp [normalizeSingle]

mutual

/-- The normalizer takes the values that conform, at any depth. -/
theorem accepts_normalizeSingle : ∀ field : RawField,
    Accepts (normalizeSingle builtins field) (ValueConforms builtins field)
  | ⟨name, .record, mode, fields⟩, value, path => by
    simp only [normalizeSingle_record]
    constructor
    · rintro ⟨normalized, entries, out, rfl, hout, -⟩
      obtain ⟨hdeclared, hfields⟩ := normalizeRecord_ok_iff.mp hout
      exact .record (.intro hdeclared ((accepts_normalizeFields fields entries path).mp
        ⟨out, hfields⟩))
    · rintro ⟨⟩
      rename_i entries h
      obtain ⟨hdeclared, hfields⟩ := h
      obtain ⟨out, hout⟩ := (accepts_normalizeFields fields entries path).mpr hfields
      exact ⟨.mapping out, entries, out, rfl, normalizeRecord_ok_iff.mpr ⟨hdeclared, hout⟩, rfl⟩
  | ⟨name, .json, mode, fields⟩, value, path => by
    simp only [normalizeSingle_json]
    constructor
    · rintro ⟨normalized, hjson, -⟩
      exact .json hjson
    · rintro ⟨⟩
      rename_i hjson
      exact ⟨value, hjson, rfl⟩
  | ⟨name, .scalar type, mode, fields⟩, value, path => by
    simp only [normalizeSingle_scalar]
    constructor
    · rintro ⟨normalized, scalar, found, rfl, hfound, -⟩
      exact .scalar (convertible_of_normalizeScalar hfound)
    · rintro ⟨⟩
      rename_i scalar hconvertible
      obtain ⟨found, hfound⟩ := normalizeScalar_of_convertible hconvertible
      exact ⟨.scalar found, scalar, found, rfl, hfound, rfl⟩

theorem accepts_normalizeFields : ∀ (fields : List RawField) (record : SourceRecord)
    (path : String), (∃ out, normalizeFields builtins fields record path = .ok out) ↔
      ∀ field ∈ fields, FieldConforms builtins field (record.lookup field.name)
  | [], _, _ => ⟨fun _ => nofun, fun _ => ⟨[], rfl⟩⟩
  | field :: rest, record, path => by
    rw [List.forall_mem_cons, ← accepts_normalizeFields rest record path,
      ← @normalizeField_iff builtins field s!"{path}.{field.name}" (accepts_normalizeSingle field)]
    constructor
    · rintro ⟨out, h⟩
      obtain ⟨value, hvalue, h⟩ := Execution.bind_eq_ok h
      obtain ⟨others, hothers, -⟩ := Execution.bind_eq_ok h
      exact ⟨⟨value, hvalue⟩, others, hothers⟩
    · rintro ⟨⟨value, hvalue⟩, others, hothers⟩
      refine ⟨(field.name, value) :: others, ?_⟩
      rw [normalizeFields, hvalue, Execution.ok_bind, hothers]
      rfl

end

theorem normalizeFields_congr {record' : SourceRecord}
    (h : ∀ field ∈ fields, record.lookup field.name = record'.lookup field.name) :
    normalizeFields builtins fields record path = normalizeFields builtins fields record' path := by
  induction fields with
  | nil => rfl
  | cons field rest ih =>
    rw [List.forall_mem_cons] at h
    rw [normalizeFields, normalizeFields, h.1, ih h.2]

mutual

/-- The normalizer leaves the values that it returns, at any depth. -/
theorem settles_normalizeSingle (hreads : NumbersReadBack builtins) : ∀ field : RawField,
    field.Declared → Settles (normalizeSingle builtins field)
  | ⟨name, .record, mode, fields⟩, hdeclared => by
    obtain ⟨-, hunique, hfields⟩ := hdeclared
    constructor
    · intro value path _ h
      obtain ⟨_, _, -, -, hnull⟩ := normalizeSingle_record.mp h
      cases hnull
    · intro value path normalized h again
      obtain ⟨entries, out, -, hout, rfl⟩ := normalizeSingle_record.mp h
      obtain ⟨-, hout⟩ := normalizeRecord_ok_iff.mp hout
      have hnames := fst_normalizeFields hout
      have hagain := settles_normalizeFields hreads fields hunique hfields hout again
      refine normalizeSingle_record.mpr
        ⟨out, out, rfl, normalizeRecord_ok_iff.mpr ⟨?_, hagain⟩, rfl⟩
      intro entry hentry
      exact hnames ▸ List.mem_map_of_mem hentry
  | ⟨name, .json, mode, fields⟩, _ => by
    constructor
    · intro value path hnull h
      obtain ⟨-, heq⟩ := normalizeSingle_json.mp h
      exact hnull heq.symm
    · intro value path normalized h again
      obtain ⟨hjson, rfl⟩ := normalizeSingle_json.mp h
      exact normalizeSingle_json.mpr ⟨hjson, rfl⟩
  | ⟨name, .scalar type, mode, fields⟩, _ => by
    constructor
    · intro value path _ h
      obtain ⟨scalar, found, -, hfound, hnull⟩ := normalizeSingle_scalar.mp h
      cases hnull
      exact (normalizeScalar_normalized hreads hfound).2 rfl
    · intro value path normalized h again
      obtain ⟨scalar, found, -, hfound, rfl⟩ := normalizeSingle_scalar.mp h
      exact normalizeSingle_scalar.mpr
        ⟨found, found, rfl, (normalizeScalar_normalized hreads hfound).1, rfl⟩

theorem settles_normalizeFields (hreads : NumbersReadBack builtins) : ∀ fields : List RawField,
    (fields.map RawField.name).Nodup → (∀ field ∈ fields, field.Declared) →
      ∀ {record out : SourceRecord} {path : String},
        normalizeFields builtins fields record path = .ok out →
          ∀ again, normalizeFields builtins fields out again = .ok out
  | [], _, _, _, _, _, h, _ => by
    cases h
    rfl
  | field :: rest, hunique, hdeclared, record, out, path, h, again => by
    obtain ⟨value, hvalue, h⟩ := Execution.bind_eq_ok h
    obtain ⟨others, hothers, h⟩ := Execution.bind_eq_ok h
    cases h
    rw [List.map_cons, List.nodup_cons] at hunique
    rw [List.forall_mem_cons] at hdeclared
    have hfirst := normalizeField_normalized (settles_normalizeSingle hreads field hdeclared.1)
      hvalue s!"{again}.{field.name}"
    have hrest := settles_normalizeFields hreads rest hunique.2 hdeclared.2 hothers again
    have hbehind : ∀ other ∈ rest,
        ((field.name, value) :: others).lookup other.name = others.lookup other.name := by
      intro other hother
      have hne : other.name ≠ field.name := by
        intro heq
        exact hunique.1 (heq ▸ List.mem_map_of_mem hother)
      rw [List.lookup_cons, beq_false_of_ne hne]
    rw [normalizeFields, List.lookup_cons_self, hfirst, Execution.ok_bind,
      normalizeFields_congr hbehind, hrest]
    rfl

end

/-- The normalizer takes just the records that conform, and its results conform and stay. -/
theorem normalize_record (hreads : NumbersReadBack builtins) (schema : RawSchema)
    (record : SourceRecord) (path : String) :
    ((∃ out, normalizeRecord builtins schema.fields record path = .ok out) ↔
      RecordConforms builtins schema.fields record) ∧
    ∀ out, normalizeRecord builtins schema.fields record path = .ok out →
      out.map Prod.fst = schema.fields.map RawField.name ∧
      RecordConforms builtins schema.fields out ∧
      ∀ again, normalizeRecord builtins schema.fields out again = .ok out := by
  have hiff : ∀ (record : SourceRecord) (path : String),
      (∃ out, normalizeRecord builtins schema.fields record path = .ok out) ↔
        RecordConforms builtins schema.fields record := by
    intro record path
    simp only [normalizeRecord_ok_iff, exists_and_left,
      accepts_normalizeFields schema.fields record path]
    constructor
    · rintro ⟨hdeclared, hfields⟩
      exact .intro hdeclared hfields
    · rintro ⟨hdeclared, hfields⟩
      exact ⟨hdeclared, hfields⟩
  refine ⟨hiff record path, ?_⟩
  intro out hout
  obtain ⟨-, hfields⟩ := normalizeRecord_ok_iff.mp hout
  have hnames := fst_normalizeFields hfields
  have hagain : ∀ again, normalizeRecord builtins schema.fields out again = .ok out := by
    intro again
    refine normalizeRecord_ok_iff.mpr ⟨?_, settles_normalizeFields hreads schema.fields
      schema.names_unique schema.declared hfields again⟩
    intro entry hentry
    exact hnames ▸ List.mem_map_of_mem hentry
  exact ⟨hnames, (hiff out path).mp ⟨out, hagain path⟩, hagain⟩

/-- Python as far as it reads the price of an order. -/
def orderReaders : Builtins where
  int _ := none
  decimal text := if text = "1.50" then some (.finite false 150 (-2)) else none
  float _ := none
  floatRepr _ := ""
  dateFromisoformat _ := none
  timeFromisoformat _ := none
  datetimeFromisoformat _ := none

theorem numbersReadBack_orderReaders : NumbersReadBack orderReaders where
  float _ _ h := by cases h
  decimal text number h _ := by
    change (if text = "1.50" then some (Decimal.finite false 150 (-2)) else none) =
      some number at h
    split at h
    · cases h
      decide +kernel
    · cases h

def orderFields : List RawField :=
  [⟨"id", .scalar .int64, .required, []⟩,
   ⟨"lines", .record, .repeated,
    [⟨"price", .scalar .numeric, .nullable, []⟩, ⟨"labels", .json, .nullable, []⟩]⟩]

theorem declared_orderFields : ∀ field ∈ orderFields, field.Declared := by
  have hleaf : ∀ name dataType mode, dataType ≠ .record →
      (RawField.mk name dataType mode []).Declared := by
    intro name dataType mode htype
    exact .intro ⟨fun h => absurd h htype, fun h => absurd rfl h⟩ .nil nofun
  intro field hfield
  simp only [orderFields, List.mem_cons, List.not_mem_nil, or_false] at hfield
  rcases hfield with rfl | rfl
  · exact hleaf _ _ _ nofun
  · refine .intro ⟨fun _ => by simp, fun _ => rfl⟩ (by decide) ?_
    intro child hchild
    simp only [List.mem_cons, List.not_mem_nil, or_false] at hchild
    rcases hchild with rfl | rfl
    · exact hleaf _ _ _ nofun
    · exact hleaf _ _ _ nofun

def orderSchema : RawSchema where
  fields := orderFields
  names_unique := by decide
  declared := declared_orderFields

def orderRecord : SourceRecord :=
  [("id", .scalar (.int 7)),
   ("lines", .list [.mapping [("price", .scalar (.str "1.50")),
     ("labels", .mapping [("urgent", .scalar (.bool true))])]])]

theorem normalize_record_order :
    ((∃ out, normalizeRecord orderReaders orderSchema.fields orderRecord "record[0]" = .ok out) ↔
      RecordConforms orderReaders orderSchema.fields orderRecord) ∧
    ∀ out, normalizeRecord orderReaders orderSchema.fields orderRecord "record[0]" = .ok out →
      out.map Prod.fst = orderSchema.fields.map RawField.name ∧
      RecordConforms orderReaders orderSchema.fields out ∧
      ∀ again, normalizeRecord orderReaders orderSchema.fields out again = .ok out :=
  normalize_record numbersReadBack_orderReaders orderSchema orderRecord "record[0]"

/-- The price is a decimal behind the normalizer. -/
example : (normalizeRecord orderReaders orderFields orderRecord "record[0]").toOption =
    some [("id", .scalar (.int 7)),
      ("lines", .list [.mapping [("price", .scalar (.decimal (.finite false 150 (-2)))),
        ("labels", .mapping [("urgent", .scalar (.bool true))])]])] := rfl

end Records

end Dander.Runtime
