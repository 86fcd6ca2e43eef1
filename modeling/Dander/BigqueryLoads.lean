import Dander.RawSchemas

/-!
# Rows of BigQuery load jobs

Normalized records are loaded as JSON. The keyed and the snapshot writers encode what JSON has no
value for; the replace writer hands on its rows as they are.
-/
namespace Dander.Bigquery

open Python Dander.Runtime

section Rows

/-- The base64 text of an object, if that holds bytes. -/
abbrev Base64Of := String → Option String

def encodeScalar : Scalar → Scalar
  | .decimal number => .str number.fixed
  | .date date => .str date.isoformat
  | .time time => .str time.isoformat
  | .datetime datetime => .str datetime.isoformat
  | scalar => scalar

mutual

def jsonLoadValue (base64 : Base64Of) : Value → Value
  | .scalar scalar => .scalar (encodeScalar scalar)
  | .list items => .list (jsonLoadItems base64 items)
  | .mapping entries => .mapping (jsonLoadRow base64 entries)
  | .keyed before least => .keyed (jsonLoadRow base64 before) least
  | .object text =>
    match base64 text with
    | some encoded => .scalar (.str encoded)
    | none => .object text

def jsonLoadItems (base64 : Base64Of) : List Value → List Value
  | [] => []
  | item :: rest => jsonLoadValue base64 item :: jsonLoadItems base64 rest

def jsonLoadRow (base64 : Base64Of) : SourceRecord → SourceRecord
  | [] => []
  | (key, value) :: rest => (key, jsonLoadValue base64 value) :: jsonLoadRow base64 rest

end

inductive LoadWriter where
  | scd1
  | incremental
  | snapshot
  | scd2
  | replace
  deriving DecidableEq

/-- The row that a writer hands to `load_table_from_json` for a record. -/
def loadedRow (base64 : Base64Of) : LoadWriter → SourceRecord → SourceRecord
  | .replace, record => record
  | .scd1, record | .incremental, record | .snapshot, record | .scd2, record =>
    jsonLoadRow base64 record

/-- The rows of each call of `load_table_from_json`. -/
def loadBatches (base64 : Base64Of) (writer : LoadWriter) (maxBatchRows : ℕ+)
    (rows : List SourceRecord) : List (List SourceRecord) :=
  if rows = [] then []
  else
    (rows.take maxBatchRows).map (loadedRow base64 writer) ::
      loadBatches base64 writer maxBatchRows (rows.drop maxBatchRows)
termination_by rows.length
decreasing_by
  rename_i hrows
  have hpositive := maxBatchRows.pos
  have hlength := List.length_pos_of_ne_nil hrows
  rw [List.length_drop]
  omega

end Rows

section Plain

/-- A text, an integer, a finite float, a boolean or a null. -/
def plainScalar : Scalar → Bool
  | .none | .bool _ | .int _ | .str _ => true
  | .float number => number.isFinite
  | .decimal _ | .date _ | .time _ | .datetime _ => false

mutual

/-- A value that JSON has: `json.dumps` takes no other. -/
def plain : Value → Bool
  | .scalar scalar => plainScalar scalar
  | .list items => plainItems items
  | .mapping entries => plainRow entries
  | .keyed _ _ | .object _ => false

def plainItems : List Value → Bool
  | [] => true
  | item :: rest => plain item && plainItems rest

def plainRow : SourceRecord → Bool
  | [] => true
  | (_, value) :: rest => plain value && plainRow rest

end

variable {base64 : Base64Of}

theorem encodeScalar_eq_self {scalar : Scalar} (h : plainScalar scalar = true) :
    encodeScalar scalar = scalar := by
  cases scalar with
  | decimal number => cases h
  | date date => cases h
  | time time => cases h
  | datetime datetime => cases h
  | none => rfl
  | bool value => rfl
  | int value => rfl
  | float value => rfl
  | str value => rfl

mutual

theorem jsonLoadValue_eq_self : ∀ value : Value, plain value = true →
    jsonLoadValue base64 value = value
  | .scalar scalar, h => by rw [jsonLoadValue, encodeScalar_eq_self h]
  | .list items, h => by rw [jsonLoadValue, jsonLoadItems_eq_self items h]
  | .mapping entries, h => by rw [jsonLoadValue, jsonLoadRow_eq_self entries h]
  | .keyed before least, h => by cases h
  | .object text, h => by cases h

theorem jsonLoadItems_eq_self : ∀ items : List Value, plainItems items = true →
    jsonLoadItems base64 items = items
  | [], _ => rfl
  | item :: rest, h => by
    rw [plainItems, Bool.and_eq_true] at h
    rw [jsonLoadItems, jsonLoadValue_eq_self item h.1, jsonLoadItems_eq_self rest h.2]

theorem jsonLoadRow_eq_self : ∀ record : SourceRecord, plainRow record = true →
    jsonLoadRow base64 record = record
  | [], _ => rfl
  | (key, value) :: rest, h => by
    rw [plainRow, Bool.and_eq_true] at h
    rw [jsonLoadRow, jsonLoadValue_eq_self value h.1, jsonLoadRow_eq_self rest h.2]

end

theorem plainScalar_encodeScalar {scalar : Scalar}
    (h : ∀ number, scalar = .float number → number.isFinite = true) :
    plainScalar (encodeScalar scalar) = true := by
  cases scalar with
  | float number => exact h number rfl
  | decimal number => rfl
  | date date => rfl
  | time time => rfl
  | datetime datetime => rfl
  | none => rfl
  | bool value => rfl
  | int value => rfl
  | str value => rfl

end Plain

section Normalized

variable {base64 : Base64Of} {builtins : Builtins} {path : String}

/-- What the normalizer returns for a scalar is no infinite float. -/
theorem plain_encode_normalizeScalar {type : ScalarType} {scalar normalized : Scalar}
    (h : normalizeScalar builtins type scalar = some normalized) :
    plainScalar (encodeScalar normalized) = true := by
  apply plainScalar_encodeScalar
  rintro number rfl
  have hint : ∀ value, normalizeInt value ≠ some (.float number) := by
    intro value hvalue
    obtain ⟨_, -, hrest⟩ := Option.bind_eq_some_iff.mp hvalue
    split at hrest <;> cases hrest
  have hdecimal : ∀ text, normalizeDecimal builtins text ≠ some (.float number) := by
    intro text htext
    obtain ⟨_, -, hrest⟩ := Option.bind_eq_some_iff.mp htext
    split at hrest <;> cases hrest
  have hfloat : ∀ value, normalizeFloat builtins value = some (.float number) →
      number.isFinite = true := by
    intro value hvalue
    obtain ⟨_, -, hrest⟩ := Option.bind_eq_some_iff.mp hvalue
    split at hrest
    next hfinite =>
      cases hrest
      exact hfinite
    next => cases hrest
  unfold normalizeScalar at h
  split at h
  all_goals first
    | cases h
    | exact absurd h (hint _)
    | exact absurd h (hdecimal _)
    | exact hfloat _ h
    | simp [Option.bind_eq_some_iff] at h

mutual

theorem plain_of_validateJsonValue : ∀ (value : Value) (path : String),
    validateJsonValue path value = .ok () → plain value = true
  | .scalar scalar, path, h => by
    cases scalar with
    | none => rfl
    | bool value => rfl
    | int value => rfl
    | str value => rfl
    | float number =>
      unfold validateJsonValue at h
      split at h
      next hfinite => exact hfinite
      next => cases h
    | decimal number => cases h
    | date date => cases h
    | time time => cases h
    | datetime datetime => cases h
  | .list items, path, h => plain_of_validateJsonItems items path 0 h
  | .mapping entries, path, h => plain_of_validateJsonEntries entries path h
  | .keyed before least, path, h => by
    obtain ⟨-, -, herror⟩ := Execution.bind_eq_ok h
    cases herror
  | .object text, path, h => by cases h

theorem plain_of_validateJsonItems : ∀ (items : List Value) (path : String) (index : ℕ),
    validateJsonItems path index items = .ok () → plainItems items = true
  | [], _, _, _ => rfl
  | item :: rest, path, index, h => by
    obtain ⟨⟨⟩, hitem, hrest⟩ := Execution.bind_eq_ok h
    rw [plainItems, plain_of_validateJsonValue item _ hitem,
      plain_of_validateJsonItems rest path _ hrest]
    rfl

theorem plain_of_validateJsonEntries : ∀ (entries : List (String × Value)) (path : String),
    validateJsonEntries path entries = .ok () → plainRow entries = true
  | [], _, _ => rfl
  | (key, item) :: rest, path, h => by
    obtain ⟨⟨⟩, hitem, hrest⟩ := Execution.bind_eq_ok h
    rw [plainRow, plain_of_validateJsonValue item _ hitem,
      plain_of_validateJsonEntries rest path hrest]
    rfl

end

/-- What a field without a value holds. -/
theorem plain_absentValue {mode : FieldMode} {value : Value}
    (h : absentValue mode path = .ok value) : plain (jsonLoadValue base64 value) = true := by
  cases mode with
  | nullable =>
    cases h
    rfl
  | required => cases h
  | repeated =>
    cases h
    rfl

theorem normalizeItems_cons {single : Value → String → Except RunError Value} {item : Value}
    (hitem : item ≠ .scalar .none) (index : ℕ) (rest : List Value) :
    normalizeItems single path index (item :: rest) = (do
      let normalized ← single item s!"{path}[{index}]"
      let others ← normalizeItems single path (index + 1) rest
      return normalized :: others) := by
  cases item with
  | scalar scalar =>
    cases scalar with
    | none => exact absurd rfl hitem
    | bool value => rfl
    | int value => rfl
    | float value => rfl
    | str value => rfl
    | decimal value => rfl
    | date value => rfl
    | time value => rfl
    | datetime value => rfl
  | list items => rfl
  | mapping entries => rfl
  | keyed before least => rfl
  | object text => rfl

/-- A normalizer of single values whose results are encoded as JSON. -/
def EncodesPlain (base64 : Base64Of) (single : Value → String → Except RunError Value) : Prop :=
  ∀ value path normalized, single value path = .ok normalized →
    plain (jsonLoadValue base64 normalized) = true

theorem plain_normalizeItems {single : Value → String → Except RunError Value}
    (hsingle : EncodesPlain base64 single) {items normalized : List Value} {index : ℕ}
    (h : normalizeItems single path index items = .ok normalized) :
    plainItems (jsonLoadItems base64 normalized) = true := by
  induction items generalizing index normalized with
  | nil =>
    cases h
    rfl
  | cons item rest ih =>
    by_cases hitem : item = .scalar .none
    · subst hitem
      cases h
    · rw [normalizeItems_cons hitem] at h
      obtain ⟨value, hvalue, h⟩ := Execution.bind_eq_ok h
      obtain ⟨others, hothers, h⟩ := Execution.bind_eq_ok h
      cases h
      rw [jsonLoadItems, plainItems, hsingle _ _ _ hvalue, ih hothers]
      rfl

theorem plain_normalizeField {mode : FieldMode} {single : Value → String → Except RunError Value}
    (hsingle : EncodesPlain base64 single) {entry : Option Value} {value : Value}
    (h : normalizeField mode single path entry = .ok value) :
    plain (jsonLoadValue base64 value) = true := by
  unfold normalizeField at h
  split at h
  · exact plain_absentValue h
  · exact plain_absentValue h
  · split at h
    next items _ =>
      cases hitems : normalizeItems single path 0 items with
      | error error =>
        rw [hitems] at h
        cases h
      | ok normalized =>
        rw [hitems] at h
        cases h
        exact plain_normalizeItems hsingle hitems
    next => cases h
    next => exact hsingle _ _ _ h

mutual

/-- The encoding of a value that the normalizer returned is JSON, at any depth. -/
theorem encodesPlain_normalizeSingle : ∀ field : RawField,
    EncodesPlain base64 (normalizeSingle builtins field)
  | ⟨name, .record, mode, fields⟩, value, path, normalized, h => by
    cases value with
    | mapping entries =>
      unfold normalizeSingle at h
      split at h
      · cases h
      · cases hfields : normalizeFields builtins fields entries path with
        | error error =>
          rw [hfields] at h
          cases h
        | ok record =>
          rw [hfields] at h
          cases h
          exact plain_normalizeFields fields hfields
    | scalar scalar => cases h
    | list items => cases h
    | keyed before least => cases h
    | object text => cases h
  | ⟨name, .json, mode, fields⟩, value, path, normalized, h => by
    obtain ⟨⟨⟩, hvalid, h⟩ := Execution.bind_eq_ok h
    cases h
    have hplain := plain_of_validateJsonValue value path hvalid
    rwa [jsonLoadValue_eq_self value hplain]
  | ⟨name, .scalar type, mode, fields⟩, value, path, normalized, h => by
    cases value with
    | scalar scalar =>
      unfold normalizeSingle at h
      split at h
      next found hfound =>
        cases h
        exact plain_encode_normalizeScalar hfound
      next => cases h
    | list items => cases h
    | mapping entries => cases h
    | keyed before least => cases h
    | object text => cases h

theorem plain_normalizeFields : ∀ (fields : List RawField) {record out : SourceRecord}
    {path : String}, normalizeFields builtins fields record path = .ok out →
      plainRow (jsonLoadRow base64 out) = true
  | [], _, _, _, h => by
    cases h
    rfl
  | field :: rest, record, out, path, h => by
    obtain ⟨value, hvalue, h⟩ := Execution.bind_eq_ok h
    obtain ⟨others, hothers, h⟩ := Execution.bind_eq_ok h
    cases h
    rw [jsonLoadRow, plainRow,
      plain_normalizeField (encodesPlain_normalizeSingle field) hvalue,
      plain_normalizeFields rest hothers]
    rfl

end

end Normalized

section Loads

variable {base64 : Base64Of} {builtins : Builtins} {fields : List RawField} {W : Type}
  {loads meaning : SourceRecord → W} {maxBatchRows : ℕ+} {records : List SourceRecord}

/-- The batches hold the rows in their order. -/
theorem flatten_loadBatches (writer : LoadWriter) :
    (loadBatches base64 writer maxBatchRows records).flatten =
      records.map (loadedRow base64 writer) := by
  fun_induction loadBatches base64 writer maxBatchRows records with
  | case1 => rfl
  | case2 rows hrows ih =>
    rw [List.flatten_cons, ih, ← List.map_append, List.take_append_drop]

/-- The load jobs of all writers take the same rows, which JSON has values for and which load as
what the records mean. -/
structure LoadsAlike (base64 : Base64Of) (loads meaning : SourceRecord → W) (maxBatchRows : ℕ+)
    (records : List SourceRecord) : Prop where
  plain : ∀ writer, ∀ batch ∈ loadBatches base64 writer maxBatchRows records, ∀ row ∈ batch,
    plainRow row = true
  denotes : ∀ writer, (loadBatches base64 writer maxBatchRows records).flatten.map loads =
    records.map meaning
  same : ∀ writer writer', loadBatches base64 writer maxBatchRows records =
    loadBatches base64 writer' maxBatchRows records

theorem loadedRow_eq_self {writer : LoadWriter} {record : SourceRecord}
    (h : plainRow record = true) : loadedRow base64 writer record = record := by
  cases writer with
  | replace => rfl
  | scd1 => exact jsonLoadRow_eq_self record h
  | incremental => exact jsonLoadRow_eq_self record h
  | snapshot => exact jsonLoadRow_eq_self record h
  | scd2 => exact jsonLoadRow_eq_self record h

/-- The writers that encode their rows hand on JSON. -/
theorem plain_loadedRow {record out : SourceRecord} {path : String}
    (h : normalizeRecord builtins fields record path = .ok out) {writer : LoadWriter}
    (hwriter : writer ≠ .replace) : plainRow (loadedRow base64 writer out) = true := by
  have hplain := @plain_normalizeFields base64 builtins fields record out path
    (normalizeRecord_eq_ok h)
  cases writer with
  | replace => exact absurd rfl hwriter
  | scd1 => exact hplain
  | incremental => exact hplain
  | snapshot => exact hplain
  | scd2 => exact hplain

theorem loadBatches_eq {writer : LoadWriter} (h : ∀ record ∈ records, plainRow record = true) :
    loadBatches base64 writer maxBatchRows records =
      loadBatches base64 .replace maxBatchRows records := by
  fun_induction loadBatches base64 writer maxBatchRows records with
  | case1 =>
    unfold loadBatches
    rfl
  | case2 rows hrows ih =>
    have hrest := ih fun record hrecord => h record (List.mem_of_mem_drop hrecord)
    rw [hrest, loadBatches.eq_def base64 .replace maxBatchRows rows, if_neg hrows]
    congr 1
    apply List.map_congr_left
    intro record hrecord
    exact loadedRow_eq_self (h record (List.mem_of_mem_take hrecord))

theorem loadsAlike_iff (hmeaning : ∀ record, plainRow record = true →
    meaning record = loads record) :
    LoadsAlike base64 loads meaning maxBatchRows records ↔
      ∀ record ∈ records, plainRow record = true := by
  constructor
  · intro h record hrecord
    have hhanded : record ∈ (loadBatches base64 .replace maxBatchRows records).flatten := by
      rw [flatten_loadBatches]
      exact List.mem_map.mpr ⟨record, hrecord, rfl⟩
    obtain ⟨batch, hbatch, hrow⟩ := List.mem_flatten.mp hhanded
    exact h.plain .replace batch hbatch record hrow
  · intro h
    have hself : ∀ writer, records.map (loadedRow base64 writer) = records := by
      intro writer
      rw [List.map_congr_left fun record hrecord => loadedRow_eq_self (h record hrecord)]
      exact List.map_id' records
    constructor
    · intro writer batch hbatch row hrow
      have hmem := List.mem_flatten_of_mem hbatch hrow
      rw [flatten_loadBatches, hself] at hmem
      exact h row hmem
    · intro writer
      rw [flatten_loadBatches, hself]
      exact List.map_congr_left fun record hrecord => (hmeaning record (h record hrecord)).symm
    · have hrows : ∀ writer, loadBatches base64 writer maxBatchRows records =
          loadBatches base64 .replace maxBatchRows records := fun writer => loadBatches_eq h
      intro writer writer'
      rw [hrows writer, hrows writer']

/-- Normalized records are loaded alike just where they hold nothing but JSON. -/
theorem load_rows (hnormalized : ∀ out ∈ records, ∃ record path,
      normalizeRecord builtins fields record path = .ok out)
    (hmeaning : ∀ record, plainRow record = true → meaning record = loads record) :
    (LoadsAlike base64 loads meaning maxBatchRows records ↔
      ∀ record ∈ records, plainRow record = true) ∧
    ∀ writer, writer ≠ .replace → ∀ batch ∈ loadBatches base64 writer maxBatchRows records,
      ∀ row ∈ batch, plainRow row = true := by
  refine ⟨loadsAlike_iff hmeaning, ?_⟩
  intro writer hwriter batch hbatch row hrow
  have hmem := List.mem_flatten_of_mem hbatch hrow
  rw [flatten_loadBatches] at hmem
  obtain ⟨out, hout, rfl⟩ := List.mem_map.mp hmem
  obtain ⟨record, path, h⟩ := hnormalized out hout
  exact plain_loadedRow h hwriter

/-- Python without its readers of texts. -/
def bareBuiltins : Builtins where
  int _ := none
  decimal _ := none
  float _ := none
  floatRepr _ := ""
  dateFromisoformat _ := none
  timeFromisoformat _ := none
  datetimeFromisoformat _ := none

theorem load_rows_of_integers :
    (LoadsAlike (fun _ => none) id id 2 [[("id", .scalar (.int 7))]] ↔
      ∀ record ∈ [[("id", Value.scalar (.int 7))]], plainRow record = true) ∧
    ∀ writer, writer ≠ .replace →
      ∀ batch ∈ loadBatches (fun _ => none) writer 2 [[("id", .scalar (.int 7))]],
        ∀ row ∈ batch, plainRow row = true := by
  refine @load_rows (fun _ => none) bareBuiltins [⟨"id", .scalar .int64, .required, []⟩]
    SourceRecord id id 2 _ ?_ ?_
  · intro out hout
    rw [List.mem_singleton.mp hout]
    exact ⟨[("id", .scalar (.int 7))], "record[0]", rfl⟩
  · intro record _
    rfl

/-- A moment in UTC, as a connector yields it. -/
def exampleMoment : DateTime :=
  ⟨⟨2024, 1, 2, by decide⟩, ⟨3, 4, 5, 0, by decide⟩, some ⟨0, by decide⟩⟩

/-- The replace writer hands on a timestamp as the object that it is. -/
theorem replace_row_not_plain :
    normalizeRecord bareBuiltins [⟨"at", .scalar .timestamp, .nullable, []⟩]
        [("at", .scalar (.datetime exampleMoment))] "record[0]" =
      .ok [("at", .scalar (.datetime exampleMoment))] ∧
    ¬ LoadsAlike (fun _ => none) id (jsonLoadRow fun _ => none) 1
      [[("at", .scalar (.datetime exampleMoment))]] := by
  refine ⟨rfl, ?_⟩
  intro h
  have hbatch : [("at", Value.scalar (.datetime exampleMoment))] ∈
      (loadBatches (fun _ => none) .replace 1
        [[("at", .scalar (.datetime exampleMoment))]]).flatten := by
    rw [flatten_loadBatches]
    exact List.mem_singleton_self _
  obtain ⟨batch, hbatch, hrow⟩ := List.mem_flatten.mp hbatch
  cases h.plain .replace batch hbatch _ hrow

end Loads

end Dander.Bigquery
