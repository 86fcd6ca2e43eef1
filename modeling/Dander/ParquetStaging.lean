import Dander.CanonicalSchemas
import Dander.Execution

/-!
# Parquet staging

Rows are normalized against the staging schema and written to bounded parts: a part that is full,
or that the next row would make too large, is written before the row is buffered. `dumps` is
`json.dumps(value, separators=(",", ":"), sort_keys=True)`, or none where that raises.
-/
namespace Dander.Staging

open Warehouse (CanonicalType CanonicalField FieldOf FieldCardinality RelationSchema)

structure StagingArtifactError where
  message : String
  deriving DecidableEq

/-- The Python values of a record; `list` stands for lists and tuples. -/
inductive Value where
  | scalar (value : Python.Scalar)
  | bytes (value : List UInt8)
  | list (items : List Value)
  | mapping (entries : List (String × Value))
  /-- Any other object. -/
  | object (str : String)

abbrev Record := List (String × Value)

section Normalization

variable (dumps : Value → Option String)

/-- `set(record) == {field.name for field in fields}` -/
def sameNames (record : Record) (fields : List CanonicalField) : Bool :=
  record.all (fun entry => decide (entry.1 ∈ fields.map FieldOf.name)) &&
    fields.all fun field => decide (field.name ∈ record.map Prod.fst)

def mismatch (rowIndex : ℕ) : StagingArtifactError :=
  ⟨s!"staging record {rowIndex} does not match the declared schema"⟩

/-- The items of an array: nulls stay nulls. -/
def normalizeItems (normalize : Value → Except StagingArtifactError Value) :
    List Value → Except StagingArtifactError (List Value)
  | [] => .ok []
  | item :: rest => do
    let normalized ← match item with
      | .scalar .none => .ok item
      | _ => normalize item
    let others ← normalizeItems normalize rest
    return normalized :: others

/-- The nulls of a field. -/
def normalizeValue (cardinality : FieldCardinality) (rowIndex : ℕ)
    (normalize : Value → Except StagingArtifactError Value) :
    Value → Except StagingArtifactError Value
  | .scalar .none =>
    match cardinality with
    | .required => .error ⟨s!"staging record {rowIndex} has a null required field"⟩
    | .nullable => .ok (.scalar .none)
  | value => normalize value

mutual

def normalizeTypeValue (rowIndex : ℕ) : CanonicalType → Value → Except StagingArtifactError Value
  | .json, value =>
    match dumps value with
    | some text => .ok (.scalar (.str text))
    | none => .error ⟨s!"staging record {rowIndex} contains invalid JSON"⟩
  | .array element, .list items =>
    (normalizeItems (normalizeTypeValue rowIndex element) items).map .list
  | .array _, _ => .error ⟨s!"staging record {rowIndex} contains an invalid array"⟩
  | .record fields, .mapping entries =>
    if sameNames entries fields then
      (normalizeFields rowIndex fields entries).map .mapping
    else .error (mismatch rowIndex)
  | .record _, _ => .error ⟨s!"staging record {rowIndex} contains an invalid record"⟩
  | _, value => .ok value

def normalizeFields (rowIndex : ℕ) :
    List (FieldOf CanonicalType) → Record → Except StagingArtifactError Record
  | [], _ => .ok []
  | field :: rest, record => do
    let normalized ← normalizeNamed rowIndex field record
    let others ← normalizeFields rowIndex rest record
    return (field.name, normalized) :: others

def normalizeNamed (rowIndex : ℕ) : FieldOf CanonicalType → Record → Except StagingArtifactError Value
  | ⟨name, dataType, cardinality, _, _, _, _⟩, record =>
    match record.lookup name with
    | some value => normalizeValue cardinality rowIndex (normalizeTypeValue rowIndex dataType) value
    | none => .error (mismatch rowIndex)

end

def normalizeRecord (record : Record) (fields : List CanonicalField) (rowIndex : ℕ) :
    Except StagingArtifactError Record :=
  if sameNames record fields then normalizeFields dumps rowIndex fields record
  else .error (mismatch rowIndex)

/-- Normalizes one row exactly as bounded Parquet staging does. -/
def normalizeStagingRecord (record : Record) (schema : RelationSchema) (rowIndex : ℕ) :
    Except StagingArtifactError Record :=
  normalizeRecord dumps record schema.fields rowIndex

/-- The rows of a stream, normalized one after another. -/
def normalizeRecords (schema : RelationSchema) :
    ℕ → List Record → Except StagingArtifactError (List Record)
  | _, [] => .ok []
  | rowIndex, record :: rest => do
    let normalized ← normalizeStagingRecord dumps record schema rowIndex
    let others ← normalizeRecords schema (rowIndex + 1) rest
    return normalized :: others

end Normalization

section Sizes

def scalarSize : Python.Scalar → ℕ
  | .none => 1
  | .str text => text.utf8ByteSize
  | .bool _ => 1
  | .int _ | .float _ => 8
  | .decimal value => value.str.length
  | .date value => value.isoformat.length
  | .time value => value.isoformat.length
  | .datetime value => value.isoformat.length

mutual

def logicalSize : Value → ℕ
  | .scalar value => scalarSize value
  | .bytes value => value.length
  | .list items => itemsSize items
  | .mapping entries => entriesSize entries
  | .object str => str.utf8ByteSize

def itemsSize : List Value → ℕ
  | [] => 0
  | item :: rest => logicalSize item + itemsSize rest

def entriesSize : List (String × Value) → ℕ
  | [] => 0
  | (key, item) :: rest => key.utf8ByteSize + logicalSize item + entriesSize rest

end

def stagingLogicalSize (row : Record) : ℕ := logicalSize (.mapping row)

/-- The logical size of some rows. -/
def rowsSize (rows : List Record) : ℕ := (rows.map stagingLogicalSize).sum

theorem rowsSize_append (first second : List Record) :
    rowsSize (first ++ second) = rowsSize first + rowsSize second := by
  simp [rowsSize]

theorem rowsSize_singleton (row : Record) : rowsSize [row] = stagingLogicalSize row := by
  simp [rowsSize]

end Sizes

section Stage

/-- An immutable part and its content identity; `content` is what the file at the path holds. -/
structure StagedArtifact where
  path : String
  content : List Record
  rows : ℕ
  logicalBytes : ℕ
  compressedBytes : ℕ
  sha256 : String

/-- A session with positive limits. -/
structure ParquetStagingSession where
  active : Bool
  staged : Bool
  maxRows : ℕ
  maxBytes : ℕ
  rowsPositive : 0 < maxRows
  bytesPositive : 0 < maxBytes

/-- The size and the checksum of the Parquet file of some rows, or none where they do not
convert to the declared columns. -/
abbrev ParquetWriter := List Record → Option (ℕ × String)

/-- What `stage` keeps between two records. -/
structure Buffer where
  artifacts : List StagedArtifact
  chunk : List Record
  chunkBytes : ℕ
  index : ℕ

variable (dumps : Value → Option String) (parquet : ParquetWriter)
  (session : ParquetStagingSession) (schema : RelationSchema)

def writePart (records : List Record) (logicalBytes index : ℕ) :
    Except StagingArtifactError StagedArtifact :=
  match parquet records with
  | some (compressedBytes, checksum) =>
    .ok
      { path := s!"part-{Python.padded 5 index}-{String.ofList (checksum.toList.take 16)}.parquet"
        content := records
        rows := records.length
        logicalBytes := logicalBytes
        compressedBytes := compressedBytes
        sha256 := checksum }
  | none => .error ⟨s!"staging part {index} does not conform to the declared schema"⟩

/-- Whether the buffered rows are written before a row of that size is added. -/
def Buffer.flushes (buffer : Buffer) (rowBytes : ℕ) : Bool :=
  !buffer.chunk.isEmpty && (decide (session.maxRows ≤ buffer.chunk.length) ||
    decide (session.maxBytes < buffer.chunkBytes + rowBytes))

/-- Writes the buffered rows as the next part. -/
def Buffer.flush (buffer : Buffer) : Except StagingArtifactError Buffer := do
  let artifact ← writePart parquet buffer.chunk buffer.chunkBytes buffer.index
  return ⟨buffer.artifacts ++ [artifact], [], 0, buffer.index + 1⟩

def Buffer.flushWhen (buffer : Buffer) (full : Bool) : Except StagingArtifactError Buffer :=
  if full then buffer.flush parquet else .ok buffer

def Buffer.add (buffer : Buffer) (row : Record) : Buffer :=
  { buffer with
    chunk := buffer.chunk ++ [row]
    chunkBytes := buffer.chunkBytes + stagingLogicalSize row }

/-- One round of the loop. -/
def stageRow (buffer : Buffer) (row : Record) : Except StagingArtifactError Buffer := do
  let flushed ← buffer.flushWhen parquet (buffer.flushes session (stagingLogicalSize row))
  return flushed.add row

def stageRows : ℕ → Buffer → List Record → Except StagingArtifactError Buffer
  | _, buffer, [] => .ok buffer
  | rowIndex, buffer, record :: rest => do
    let normalized ← normalizeStagingRecord dumps record schema rowIndex
    let next ← stageRow parquet session buffer normalized
    stageRows (rowIndex + 1) next rest

/-- The parts of a stream: the last of them is what is buffered at its end. -/
def stagedParts (records : List Record) : Except StagingArtifactError (List StagedArtifact) := do
  let buffer ← stageRows dumps parquet session schema 0 ⟨[], [], 0, 0⟩ records
  let last ← buffer.flushWhen parquet !buffer.chunk.isEmpty
  return last.artifacts

/-- The session after the call, and the artifacts of the manifest. -/
def stage (records : List Record) :
    ParquetStagingSession × Except StagingArtifactError (List StagedArtifact) :=
  if !session.active then (session, .error ⟨"Parquet staging session is not active"⟩)
  else if session.staged then
    (session, .error ⟨"Parquet staging session may stage only once"⟩)
  else ({ session with staged := true }, stagedParts dumps parquet session schema records)

end Stage

section Parts

variable {dumps : Value → Option String} {parquet : ParquetWriter}
  {session : ParquetStagingSession} {schema : RelationSchema}

/-- A part that is not empty and within the limits; one row may be larger. -/
structure StagedArtifact.Bounded (session : ParquetStagingSession) (artifact : StagedArtifact) :
    Prop where
  nonempty : artifact.content ≠ []
  rows : artifact.rows = artifact.content.length
  rowsBound : artifact.rows ≤ session.maxRows
  size : artifact.logicalBytes = rowsSize artifact.content
  sizeBound : artifact.logicalBytes ≤ session.maxBytes ∨ artifact.rows = 1

/-- What the loop keeps after staging some rows. -/
structure Buffer.Holds (session : ParquetStagingSession) (buffer : Buffer) (rows : List Record) :
    Prop where
  content : buffer.artifacts.flatMap StagedArtifact.content ++ buffer.chunk = rows
  bounded : ∀ artifact ∈ buffer.artifacts, artifact.Bounded session
  size : buffer.chunkBytes = rowsSize buffer.chunk
  rowsBound : buffer.chunk.length ≤ session.maxRows
  sizeBound : buffer.chunkBytes ≤ session.maxBytes ∨ buffer.chunk.length = 1

theorem Buffer.holds_empty : (Buffer.mk [] [] 0 0).Holds session [] := by
  refine ⟨rfl, ?_, rfl, Nat.zero_le _, .inl (Nat.zero_le _)⟩
  intro artifact hmem
  cases hmem

theorem writePart_eq_ok {records : List Record} {logicalBytes index : ℕ}
    {artifact : StagedArtifact} (h : writePart parquet records logicalBytes index = .ok artifact) :
    artifact.content = records ∧ artifact.rows = records.length ∧
      artifact.logicalBytes = logicalBytes := by
  unfold writePart at h
  split at h
  · cases h
    exact ⟨rfl, rfl, rfl⟩
  · cases h

/-- Writing the buffered rows keeps all rows, and empties the buffer. -/
theorem Buffer.Holds.flush {buffer flushed : Buffer} {rows : List Record}
    (h : buffer.Holds session rows) (hchunk : buffer.chunk ≠ [])
    (hflush : buffer.flush parquet = .ok flushed) :
    flushed.Holds session rows ∧ flushed.chunk = [] := by
  obtain ⟨artifact, hartifact, hflush⟩ := Execution.bind_eq_ok hflush
  cases hflush
  obtain ⟨hcontent, hrows, hbytes⟩ := writePart_eq_ok hartifact
  have hbounded : artifact.Bounded session := by
    refine ⟨hcontent ▸ hchunk, by rw [hrows, hcontent], by rw [hrows]; exact h.rowsBound, ?_, ?_⟩
    · rw [hbytes, hcontent, h.size]
    · rw [hbytes, hrows]
      exact h.sizeBound
  refine ⟨⟨?_, ?_, rfl, Nat.zero_le _, .inl (Nat.zero_le _)⟩, rfl⟩
  · rw [List.flatMap_append, List.append_nil, ← h.content]
    simp [hcontent]
  · intro other hmem
    rcases List.mem_append.mp hmem with hold | hnew
    · exact h.bounded other hold
    · obtain rfl := List.mem_singleton.mp hnew
      exact hbounded

/-- A row is added to a buffer that is empty or has room for it. -/
theorem Buffer.Holds.add {buffer : Buffer} {rows : List Record} {row : Record}
    (h : buffer.Holds session rows)
    (hroom : buffer.chunk = [] ∨ (buffer.chunk.length < session.maxRows ∧
      buffer.chunkBytes + stagingLogicalSize row ≤ session.maxBytes)) :
    (buffer.add row).Holds session (rows ++ [row]) := by
  refine ⟨?_, h.bounded, ?_, ?_, ?_⟩
  · show buffer.artifacts.flatMap StagedArtifact.content ++ (buffer.chunk ++ [row]) = _
    rw [← List.append_assoc, h.content]
  · show buffer.chunkBytes + stagingLogicalSize row = rowsSize (buffer.chunk ++ [row])
    rw [rowsSize_append, rowsSize_singleton, h.size]
  · show (buffer.chunk ++ [row]).length ≤ session.maxRows
    rw [List.length_append, List.length_singleton]
    rcases hroom with hempty | ⟨hrows, -⟩
    · have := session.rowsPositive
      simp only [hempty, List.length_nil]
      omega
    · omega
  · show buffer.chunkBytes + stagingLogicalSize row ≤ session.maxBytes ∨
      (buffer.chunk ++ [row]).length = 1
    rcases hroom with hempty | ⟨-, hbytes⟩
    · right
      rw [hempty]
      rfl
    · exact .inl hbytes

theorem stageRow_holds {buffer next : Buffer} {rows : List Record} {row : Record}
    (h : buffer.Holds session rows) (hnext : stageRow parquet session buffer row = .ok next) :
    next.Holds session (rows ++ [row]) := by
  unfold stageRow at hnext
  obtain ⟨flushed, hflushed, hnext⟩ := Execution.bind_eq_ok hnext
  cases hnext
  unfold Buffer.flushWhen at hflushed
  split at hflushed
  next hfull =>
    have hchunk : buffer.chunk ≠ [] := by
      intro hempty
      simp [Buffer.flushes, hempty] at hfull
    obtain ⟨hheld, hempty⟩ := h.flush hchunk hflushed
    exact hheld.add (.inl hempty)
  next hroom =>
    cases hflushed
    refine h.add ?_
    simp only [Buffer.flushes, Bool.and_eq_true, Bool.not_eq_true', Bool.or_eq_true,
      decide_eq_true_eq, not_and, not_or, not_le, not_lt, List.isEmpty_eq_false_iff] at hroom
    by_cases hempty : buffer.chunk = []
    · exact .inl hempty
    · exact .inr (hroom hempty)

theorem stageRows_holds {records : List Record} {rowIndex : ℕ} {buffer last : Buffer}
    {rows : List Record} (h : buffer.Holds session rows)
    (hlast : stageRows dumps parquet session schema rowIndex buffer records = .ok last) :
    ∃ normalized, normalizeRecords dumps schema rowIndex records = .ok normalized ∧
      last.Holds session (rows ++ normalized) := by
  induction records generalizing rowIndex buffer rows with
  | nil =>
    cases hlast
    exact ⟨[], rfl, by simpa using h⟩
  | cons record rest ih =>
    obtain ⟨row, hrow, hlast⟩ := Execution.bind_eq_ok hlast
    obtain ⟨next, hnext, hlast⟩ := Execution.bind_eq_ok hlast
    obtain ⟨others, hothers, hheld⟩ := ih (stageRow_holds h hnext) hlast
    refine ⟨row :: others, ?_, by simpa using hheld⟩
    rw [normalizeRecords, hrow, Execution.ok_bind, hothers, Execution.ok_bind]
    rfl

theorem flushWhen_ok (hparquet : ∀ rows, (parquet rows).isSome = true) (buffer : Buffer)
    (full : Bool) : ∃ flushed, buffer.flushWhen parquet full = .ok flushed := by
  obtain ⟨written, hwritten⟩ := Option.isSome_iff_exists.mp (hparquet buffer.chunk)
  cases full with
  | false => exact ⟨buffer, rfl⟩
  | true => exact ⟨_, by rw [Buffer.flushWhen, if_pos rfl, Buffer.flush, writePart, hwritten]; rfl⟩

/-- A stream whose parts can be written and whose rows conform is staged. -/
theorem stageRows_ok (hparquet : ∀ rows, (parquet rows).isSome = true) {records : List Record}
    {rowIndex : ℕ} {buffer : Buffer} {normalized : List Record}
    (h : normalizeRecords dumps schema rowIndex records = .ok normalized) :
    ∃ last, stageRows dumps parquet session schema rowIndex buffer records = .ok last := by
  induction records generalizing rowIndex buffer normalized with
  | nil => exact ⟨buffer, rfl⟩
  | cons record rest ih =>
    obtain ⟨row, hrow, h⟩ := Execution.bind_eq_ok h
    obtain ⟨others, hothers, -⟩ := Execution.bind_eq_ok h
    have hnext : ∃ next, stageRow parquet session buffer row = .ok next := by
      obtain ⟨flushed, hflushed⟩ := flushWhen_ok hparquet buffer
        (buffer.flushes session (stagingLogicalSize row))
      exact ⟨_, by rw [stageRow, hflushed]; rfl⟩
    obtain ⟨next, hnext⟩ := hnext
    have hrest : ∃ last, stageRows dumps parquet session schema (rowIndex + 1) next rest =
        .ok last := ih hothers
    obtain ⟨last, hlast⟩ := hrest
    refine ⟨last, ?_⟩
    rw [stageRows, hrow, Execution.ok_bind, hnext, Execution.ok_bind, hlast]

theorem stagedParts_spec {records : List Record} {artifacts : List StagedArtifact}
    (h : stagedParts dumps parquet session schema records = .ok artifacts) :
    normalizeRecords dumps schema 0 records =
        .ok (artifacts.flatMap StagedArtifact.content) ∧
      ∀ artifact ∈ artifacts, artifact.Bounded session := by
  unfold stagedParts at h
  obtain ⟨buffer, hbuffer, h⟩ := Execution.bind_eq_ok h
  obtain ⟨last, hlast, h⟩ := Execution.bind_eq_ok h
  cases h
  obtain ⟨normalized, hnormalized, hheld⟩ := stageRows_holds Buffer.holds_empty hbuffer
  have hend : last.Holds session normalized ∧ last.chunk = [] := by
    unfold Buffer.flushWhen at hlast
    split at hlast
    next hchunk => exact hheld.flush (by simpa using hchunk) hlast
    next hempty =>
      cases hlast
      exact ⟨hheld, by simpa using hempty⟩
  obtain ⟨hheld, hempty⟩ := hend
  refine ⟨?_, hheld.bounded⟩
  have hcontent := hheld.content
  rw [hempty, List.append_nil] at hcontent
  rw [hcontent, hnormalized]

/-- The parts of every stream that is staged hold the normalized rows in order, none is empty or
has too many rows, and one that is too large is a single row; every stream of conforming rows
whose parts can be written is staged. -/
theorem stage_parts (dumps : Value → Option String) (parquet : ParquetWriter)
    (session : ParquetStagingSession) (schema : RelationSchema) (records : List Record) :
    (∀ artifacts, (stage dumps parquet session schema records).2 = .ok artifacts →
      normalizeRecords dumps schema 0 records =
          .ok (artifacts.flatMap StagedArtifact.content) ∧
        ∀ artifact ∈ artifacts, artifact.Bounded session) ∧
      (session.active = true → session.staged = false →
        (∀ rows, (parquet rows).isSome = true) →
        (∃ normalized, normalizeRecords dumps schema 0 records = .ok normalized) →
        ∃ artifacts, (stage dumps parquet session schema records).2 = .ok artifacts) := by
  constructor
  · intro artifacts h
    unfold stage at h
    split at h
    · cases h
    · split at h
      · cases h
      · exact stagedParts_spec h
  · rintro hactive hstaged hparquet ⟨normalized, hnormalized⟩
    have hrows : ∃ last, stageRows dumps parquet session schema 0 ⟨[], [], 0, 0⟩ records =
        .ok last := stageRows_ok hparquet hnormalized
    obtain ⟨buffer, hbuffer⟩ := hrows
    unfold stage
    simp only [hactive, hstaged, Bool.not_true, Bool.false_eq_true, if_false]
    unfold stagedParts
    rw [hbuffer, Execution.ok_bind]
    obtain ⟨last, hlast⟩ := flushWhen_ok hparquet buffer !buffer.chunk.isEmpty
    exact ⟨_, by rw [hlast]; rfl⟩

def exampleSchema : RelationSchema :=
  ⟨[⟨"id", .integer .sixtyFour, .required, "", [], by decide, by decide⟩,
    ⟨"tags", .array .string, .nullable, "", [], by decide, by decide⟩], by decide, by decide⟩

def exampleSession : ParquetStagingSession := ⟨true, false, 2, 20, by decide, by decide⟩

def exampleRecord (id : ℤ) (tags : List String) : Record :=
  [("tags", .list (tags.map fun tag => .scalar (.str tag))), ("id", .scalar (.int id))]

def exampleRecords : List Record :=
  [exampleRecord 1 [], exampleRecord 2 ["a large row"], exampleRecord 3 []]

/-- The second row does not fit behind the first one, and the third not behind the second. -/
theorem stage_parts_example : ∃ artifacts,
    (stage (fun _ => none) (fun rows => some (rows.length, "0123456789abcdef"))
      exampleSession exampleSchema exampleRecords).2 = .ok artifacts ∧
      artifacts.map StagedArtifact.rows = [1, 1, 1] ∧
      ∀ artifact ∈ artifacts, artifact.Bounded exampleSession := by
  obtain ⟨hparts, hstaged⟩ := stage_parts (fun _ => none)
    (fun rows => some (rows.length, "0123456789abcdef")) exampleSession exampleSchema
    exampleRecords
  have hconform : ∃ normalized,
      normalizeRecords (fun _ => none) exampleSchema 0 exampleRecords = .ok normalized :=
    ⟨_, rfl⟩
  obtain ⟨artifacts, hartifacts⟩ := hstaged rfl rfl (fun rows => rfl) hconform
  refine ⟨artifacts, hartifacts, ?_, (hparts artifacts hartifacts).2⟩
  have hrows : (stage (fun _ => none) (fun rows => some (rows.length, "0123456789abcdef"))
      exampleSession exampleSchema exampleRecords).2.toOption.map
        (fun artifacts => artifacts.map StagedArtifact.rows) = some [1, 1, 1] := by
    decide +kernel
  rw [hartifacts] at hrows
  exact Option.some.inj hrows

end Parts

section Bounds

/-- `_validate_manifest_bounds` of the Snowflake writer. -/
def validateManifestBounds (maxLogicalBytesPerFile : ℕ) (artifacts : List StagedArtifact) : Bool :=
  !artifacts.any fun artifact => decide (maxLogicalBytesPerFile < artifact.logicalBytes)

/-- What is staged is refused for its bounds exactly when one of its rows is too large alone. -/
theorem validateManifestBounds_staged (dumps : Value → Option String) (parquet : ParquetWriter)
    (session : ParquetStagingSession) (schema : RelationSchema) (records : List Record) :
    (stagedParts dumps parquet session schema records).map
        (validateManifestBounds session.maxBytes) =
      (stagedParts dumps parquet session schema records).map fun artifacts =>
        (artifacts.flatMap StagedArtifact.content).all fun row =>
          stagingLogicalSize row ≤ session.maxBytes := by
  cases hstaged : stagedParts dumps parquet session schema records with
  | error e => rfl
  | ok artifacts =>
    have hbounded := (stagedParts_spec hstaged).2
    refine congrArg Except.ok (Bool.eq_iff_iff.mpr ?_)
    simp only [validateManifestBounds, Bool.not_eq_true', List.any_eq_false, decide_eq_true_eq,
      not_lt, List.all_eq_true, List.mem_flatMap, forall_exists_index, and_imp]
    constructor
    · intro hsizes row artifact hmem hrow
      refine le_trans ?_ (hsizes artifact hmem)
      rw [(hbounded artifact hmem).size]
      exact List.le_sum_of_mem (List.mem_map_of_mem hrow)
    · intro hrows artifact hmem
      have hpart := hbounded artifact hmem
      rcases hpart.sizeBound with hbound | hone
      · exact hbound
      · rw [hpart.rows] at hone
        obtain ⟨row, hcontent⟩ := List.length_eq_one_iff.mp hone
        rw [hpart.size, hcontent, rowsSize_singleton]
        exact hrows row artifact hmem (by rw [hcontent]; exact List.mem_singleton_self row)

end Bounds

end Dander.Staging
