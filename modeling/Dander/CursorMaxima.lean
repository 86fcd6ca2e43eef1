import Dander.RawSchemas
import Dander.WatermarkProgress

/-!
# Committed cursors as maxima

The runner compares cursors as texts and commits the greatest text. The committed cursor is the
greatest value of its type exactly if the record with the greatest text has the greatest value, or
the stored cursor that the run keeps does.
-/
namespace Dander.Runtime

open Interleaving Python

section Cursors

variable (builtins : Builtins)

/-- `value.isoformat() if isinstance(value, datetime) else str(value)` -/
def scalarText : Scalar → String
  | .datetime value => value.isoformat
  | value => builtins.str value

/-- The text of a cursor field, unless it is missing, null or structured. -/
def cursorText (field : String) (record : SourceRecord) : Option String :=
  match record.lookup field with
  | none | some (.scalar .none) | some (.list _) | some (.mapping _) | some (.keyed _ _) => none
  | some (.scalar value) => some (scalarText builtins value)
  | some (.object str) => some str

/-- A runner for endpoints with these raw schemas. -/
def recordPort (rawSchema : String → List RawField) : RecordPort SourceRecord where
  normalizeRecord endpoint index record :=
    normalizeRecord builtins (rawSchema endpoint.name) record s!"record[{index}]"
  cursorText := cursorText builtins

/-- The cursor of a source record as a value of its type. -/
def cursorOf (type : ScalarType) (field : String) (record : SourceRecord) : Option Scalar :=
  match record.lookup field with
  | some (.scalar value) => normalizeScalar builtins type value
  | _ => none

/-- Where a value stands in the order of its type. -/
def magnitude : ScalarType → Scalar → Option ℚ
  | .int64, .int number => some number
  | .numeric, .decimal number => some number.toRat
  | .date, .date date => some date.toordinal
  | .date, .str text => (builtins.dateFromisoformat text).map fun date => (date.toordinal : ℚ)
  | .timestamp, .datetime datetime => datetime.instant.map fun instant => (instant : ℚ)
  | _, _ => none

/-- Where the value stands that a text is for its type. -/
def readMagnitude (type : ScalarType) (text : String) : Option ℚ :=
  (normalizeScalar builtins type (.str text)).bind (magnitude builtins type)

def AtMost (a b : Option ℚ) : Prop :=
  ∀ x y, a = some x → b = some y → x ≤ y

/-- No cursor is greater than the committed one. -/
def CommittedIsMaximal (type : ScalarType) (cursors : List Scalar) (committed : Option String) :
    Prop :=
  ∀ text, committed = some text → ∀ cursor ∈ cursors,
    AtMost (magnitude builtins type cursor) (readMagnitude builtins type text)

/-- The stored cursor, if it takes part in the maximum. -/
def keptCursor (options : RunOptions) (endpoint : Endpoint) (stored : Option String) :
    Option String :=
  if endpoint.cursorParam = some "" || !options.resumeFromWatermark then stored else none

/-- A cursor, or the kept one, whose text is greatest is the greatest in the order of its type. -/
structure GreatestAlike (type : ScalarType) (cursors : List Scalar) (kept : Option String) :
    Prop where
  seen : ∀ last ∈ cursors,
    (∀ cursor ∈ cursors, scalarText builtins cursor ≤ scalarText builtins last) →
    (∀ stored, kept = some stored → stored ≤ scalarText builtins last) →
      ∀ cursor ∈ cursors, AtMost (magnitude builtins type cursor) (magnitude builtins type last)
  kept : ∀ stored, kept = some stored →
    (∀ cursor ∈ cursors, scalarText builtins cursor ≤ stored) →
      ∀ cursor ∈ cursors,
        AtMost (magnitude builtins type cursor) (readMagnitude builtins type stored)

/-- Python reads the texts of the cursors as the values they are the texts of. -/
def ReadsBack (type : ScalarType) (cursors : List Scalar) : Prop :=
  ∀ cursor ∈ cursors,
    readMagnitude builtins type (scalarText builtins cursor) = magnitude builtins type cursor

end Cursors

section Types

variable {builtins : Builtins} {type : ScalarType} {value normalized : Scalar}

/-- Every normalized cursor has its place in the order of its type. -/
theorem magnitude_isSome (htype : type ∈ [ScalarType.int64, .numeric, .date, .timestamp])
    (h : normalizeScalar builtins type value = some normalized) :
    (magnitude builtins type normalized).isSome = true := by
  simp only [List.mem_cons, List.not_mem_nil, or_false] at htype
  rcases htype with rfl | rfl | rfl | rfl
  · cases value with
    | int number =>
      simp only [normalizeScalar, normalizeInt, Option.bind_some] at h
      split at h
      · cases h
        rfl
      · cases h
    | str text =>
      obtain ⟨number, -, h⟩ := Option.bind_eq_some_iff.mp h
      split at h
      · cases h
        rfl
      · cases h
    | _ => cases h
  · have hdecimal : ∀ text, normalizeDecimal builtins text = some normalized →
        (magnitude builtins .numeric normalized).isSome = true := by
      intro text hnormalized
      obtain ⟨number, -, hfinite⟩ := Option.bind_eq_some_iff.mp hnormalized
      split at hfinite
      · cases hfinite
        rfl
      · cases hfinite
    cases value with
    | str text => exact hdecimal _ h
    | int number => exact hdecimal _ h
    | float number => exact hdecimal _ h
    | decimal number => exact hdecimal _ h
    | _ => cases h
  · cases value with
    | str text =>
      obtain ⟨date, hdate, h⟩ := Option.map_eq_some_iff.mp h
      subst h
      simp [magnitude, hdate]
    | date date =>
      cases h
      rfl
    | _ => cases h
  · have hinstant : ∀ parsed : DateTime,
        (if parsed.utcoffset = none then none else some (Scalar.datetime parsed)) =
          some normalized → (magnitude builtins .timestamp normalized).isSome = true := by
      intro parsed haware
      split at haware
      · cases haware
      next hoffset =>
        cases haware
        obtain ⟨offset, hoffset⟩ := Option.ne_none_iff_exists'.mp hoffset
        simp [magnitude, DateTime.instant, hoffset]
    cases value with
    | str text =>
      obtain ⟨parsed, -, h⟩ := Option.bind_eq_some_iff.mp h
      exact hinstant parsed h
    | datetime parsed => exact hinstant parsed h
    | _ => cases h

end Types

section Records

variable {builtins : Builtins} {rawSchema : String → List RawField} {endpoint : Endpoint}
  {column : RawField} {type : ScalarType} {record : SourceRecord} {index : ℕ} {text : String}

/-- What the runner observes of a record is its cursor as a value of its type. -/
theorem recordCursor_eq (hdeclares : endpoint.declaresSchema = true)
    (hnames : ((rawSchema endpoint.name).map RawField.name).Nodup)
    (hcolumn : column ∈ rawSchema endpoint.name) (htype : column.dataType = .scalar type)
    (h : recordCursor (recordPort builtins rawSchema) endpoint column.name index record =
      some text) :
    ∃ value, cursorOf builtins type column.name record = some value ∧
      scalarText builtins value = text := by
  unfold recordCursor normalizedRecord at h
  rw [if_pos hdeclares] at h
  cases hnormalized : (recordPort builtins rawSchema).normalizeRecord endpoint index record with
  | error e =>
    rw [hnormalized] at h
    cases h
  | ok out =>
    rw [hnormalized] at h
    obtain ⟨value, hvalue, hlookup⟩ :=
      lookup_normalizeFields (normalizeRecord_eq_ok hnormalized) hnames hcolumn
    have htext : cursorText builtins column.name out = some text := h
    unfold cursorText at htext
    rw [hlookup] at htext
    rcases normalizeField_scalar htype hvalue with ⟨items, rfl⟩ | rfl |
      ⟨scalar, normalized, hentry, hscalar, rfl⟩
    · cases htext
    · cases htext
    · refine ⟨normalized, ?_, ?_⟩
      · simp [cursorOf, hentry, hscalar]
      · cases normalized with
        | none => cases htext
        | _ => exact Option.some.inj htext

end Records

section Maxima

variable {builtins : Builtins} {type : ScalarType} {cursors : List Scalar} {options : RunOptions}
  {endpoint : Endpoint} {stored : Option String} {maximum : String}

theorem cursorToCommit_eq : cursorToCommit options endpoint stored maximum =
    (keptCursor options endpoint stored).elim maximum (fun kept => max kept maximum) := by
  unfold cursorToCommit keptCursor
  cases stored with
  | none => simp
  | some stored =>
    cases decide (endpoint.cursorParam = some "") || !options.resumeFromWatermark <;> simp

/-- The greatest text is maximal exactly if it is the text of the greatest value. -/
theorem committedIsMaximal_iff (hreads : ReadsBack builtins type cursors)
    (hmaximum : ∃ last ∈ cursors, scalarText builtins last = maximum)
    (hgreatest : ∀ cursor ∈ cursors, scalarText builtins cursor ≤ maximum) :
    CommittedIsMaximal builtins type cursors
        (some (cursorToCommit options endpoint stored maximum)) ↔
      GreatestAlike builtins type cursors (keptCursor options endpoint stored) := by
  rw [cursorToCommit_eq]
  generalize keptCursor options endpoint stored = kept
  constructor
  · intro hmaximal
    constructor
    · intro last hlast htexts hkept
      have hsame : maximum = scalarText builtins last := by
        obtain ⟨greatest, hgreatestIn, rfl⟩ := hmaximum
        exact le_antisymm (htexts greatest hgreatestIn) (hgreatest last hlast)
      have hcommitted : kept.elim maximum (fun kept => max kept maximum) =
          scalarText builtins last := by
        cases kept with
        | none => exact hsame
        | some stored => exact (max_eq_right (hsame ▸ hkept stored rfl)).trans hsame
      rw [← hreads last hlast]
      exact hmaximal _ (congrArg some hcommitted)
    · intro stored hstored htexts
      subst hstored
      have hle : maximum ≤ stored := by
        obtain ⟨greatest, hgreatestIn, rfl⟩ := hmaximum
        exact htexts greatest hgreatestIn
      exact hmaximal _ (congrArg some (max_eq_left hle))
  · rintro ⟨hseen, hstored⟩ text htext
    obtain ⟨last, hlast, hmax⟩ := hmaximum
    cases kept with
    | none =>
      obtain rfl : maximum = text := Option.some.inj htext
      have hlasts : ∀ cursor ∈ cursors, scalarText builtins cursor ≤ scalarText builtins last := by
        rw [hmax]
        exact hgreatest
      have hbound := hseen last hlast hlasts (fun _ hnone => by cases hnone)
      rw [← hreads last hlast, hmax] at hbound
      exact hbound
    | some stored =>
      obtain rfl : max stored maximum = text := Option.some.inj htext
      by_cases hle : maximum ≤ stored
      · rw [max_eq_left hle]
        exact hstored stored rfl fun cursor hcursor => (hgreatest cursor hcursor).trans hle
      · have hlt : stored ≤ maximum := (not_le.mp hle).le
        have hlasts : ∀ cursor ∈ cursors,
            scalarText builtins cursor ≤ scalarText builtins last := by
          rw [hmax]
          exact hgreatest
        have hkept : ∀ other, some stored = some other → other ≤ scalarText builtins last := by
          rintro other ⟨⟩
          rwa [hmax]
        have hbound := hseen last hlast hlasts hkept
        rw [← hreads last hlast, hmax] at hbound
        rwa [max_eq_right hlt]

end Maxima

section Runs

variable {R : Type} {port : RecordPort R} {endpoint : Endpoint} {field : String}
  {records : List R} {observation observation' : RecordObservation}

/-- Every observed record has a cursor. -/
theorem exists_recordCursor (hfield : endpoint.incrementalCursor = some field)
    (h : observeAll port endpoint records observation = .ok observation') :
    ∀ index record, records[index]? = some record → ∃ text,
      recordCursor port endpoint field (observation.extracted + index) record = some text := by
  induction records generalizing observation with
  | nil =>
    intro index record hindex
    cases hindex
  | cons first rest ih =>
    unfold observeAll at h
    cases hdraw : drawRecord port endpoint observation first with
    | error e =>
      rw [hdraw] at h
      cases h
    | ok drawn =>
      obtain ⟨normalized, middle⟩ := drawn
      rw [hdraw] at h
      obtain ⟨hcount, cursor, hcursor, -⟩ := drawRecord_spec hfield hdraw
      intro index record hindex
      cases index with
      | zero =>
        obtain rfl := Option.some.inj hindex
        exact ⟨cursor, hcursor⟩
      | succ index =>
        have hrest := ih h index record hindex
        rwa [hcount, Nat.add_assoc, Nat.add_comm 1 index] at hrest

variable {builtins : Builtins} {rawSchema : String → List RawField} {connector : Connector}
  {options : RunOptions} {column : RawField} {type : ScalarType} {stream : List SourceRecord}

/-- The endpoint declares its cursor as a column of the type. -/
structure DeclaresCursor (rawSchema : String → List RawField) (endpoint : Endpoint)
    (column : RawField) (type : ScalarType) : Prop where
  declares : endpoint.declaresSchema = true
  names : ((rawSchema endpoint.name).map RawField.name).Nodup
  column_mem : column ∈ rawSchema endpoint.name
  column_type : column.dataType = .scalar type
  cursor : endpoint.incrementalCursor = some column.name

/-- The cursors of the records of a stream. -/
def streamCursors (builtins : Builtins) (type : ScalarType) (field : String)
    (stream : List SourceRecord) : List Scalar :=
  stream.filterMap (cursorOf builtins type field)

theorem mem_streamCursors {cursor : Scalar} :
    cursor ∈ streamCursors builtins type column.name stream ↔
      ∃ record ∈ stream, cursorOf builtins type column.name record = some cursor :=
  List.mem_filterMap

theorem magnitude_streamCursors (htype : type ∈ [ScalarType.int64, .numeric, .date, .timestamp]) :
    ∀ cursor ∈ streamCursors builtins type column.name stream,
      (magnitude builtins type cursor).isSome = true := by
  intro cursor hcursor
  obtain ⟨record, -, hnormalized⟩ := mem_streamCursors.mp hcursor
  unfold cursorOf at hnormalized
  split at hnormalized
  · exact magnitude_isSome htype hnormalized
  · cases hnormalized

/-- The observed maximum is the greatest text of the cursors of the stream. -/
theorem observed_maximum (hdeclared : DeclaresCursor rawSchema endpoint column type)
    (h : observeAll (recordPort builtins rawSchema) endpoint stream ⟨0, none⟩ = .ok observation) :
    (observation.maximumCursor = none → stream = []) ∧
      ∀ maximum, observation.maximumCursor = some maximum →
        (∃ last ∈ streamCursors builtins type column.name stream,
          scalarText builtins last = maximum) ∧
        ∀ cursor ∈ streamCursors builtins type column.name stream,
          scalarText builtins cursor ≤ maximum := by
  obtain ⟨-, hreaches, hnone⟩ := observeAll_spec hdeclared.cursor h
  have hcursors := exists_recordCursor hdeclared.cursor h
  have hvalue : ∀ index record text, recordCursor (recordPort builtins rawSchema) endpoint
      column.name index record = some text → ∃ value,
        cursorOf builtins type column.name record = some value ∧
          scalarText builtins value = text := by
    intro index record text htext
    exact recordCursor_eq hdeclared.declares hdeclared.names hdeclared.column_mem
      hdeclared.column_type htext
  constructor
  · exact fun hmaximum => (hnone.mp hmaximum).2
  · intro maximum hmaximum
    have hiff : ∀ boundary, boundary ≤ maximum ↔
        ReadsFrom (recordPort builtins rawSchema) endpoint column.name 0 stream boundary := by
      intro boundary
      have hthis := hreaches boundary
      simpa [Reaches, hmaximum] using hthis
    constructor
    · obtain ⟨index, record, text, hindex, htext, hle⟩ := (hiff maximum).mp le_rfl
      obtain ⟨value, hcursor, rfl⟩ := hvalue _ _ _ htext
      refine ⟨value, mem_streamCursors.mpr ⟨record, List.mem_of_getElem? hindex, hcursor⟩, ?_⟩
      exact le_antisymm ((hiff _).mpr ⟨index, record, _, hindex, htext, le_rfl⟩) hle
    · intro cursor hcursor
      obtain ⟨record, hrecord, hnormalized⟩ := mem_streamCursors.mp hcursor
      obtain ⟨index, hindex⟩ := List.mem_iff_getElem?.mp hrecord
      obtain ⟨text, htext⟩ := hcursors index record hindex
      obtain ⟨value, hvalue, rfl⟩ := hvalue _ _ _ htext
      rw [hnormalized, Option.some.injEq] at hvalue
      subst hvalue
      exact (hiff _).mpr ⟨index, record, _, hindex, htext, le_rfl⟩

/-- In every run of an endpoint with a declared cursor, no cursor of the stream is greater than the
committed one exactly if the greatest cursor text is that of a greatest cursor. -/
theorem committed_cursor_maximal_iff (builtins : Builtins) (rawSchema : String → List RawField)
    (connector : Connector) (options : RunOptions) (endpoint : Endpoint) (column : RawField)
    (type : ScalarType) (hendpoint : endpoint ∈ connector.config.endpoints)
    (hdeclared : DeclaresCursor rawSchema endpoint column type)
    (htype : type ∈ [ScalarType.int64, .numeric, .date, .timestamp])
    (w t : Boundaries SourceRecord) (result : EndpointRunResult)
    (ran : Alone (sourceProviders connector)
      (runEndpoint (recordPort builtins rawSchema) options endpoint) w (some (.ok result)) t)
    (hreads : ReadsBack builtins type (streamCursors builtins type column.name
      (extraction connector options w.source endpoint (w.watermark endpoint.name)).records)) :
    (∀ cursor ∈ streamCursors builtins type column.name
        (extraction connector options w.source endpoint (w.watermark endpoint.name)).records,
      (magnitude builtins type cursor).isSome = true) ∧
    (CommittedIsMaximal builtins type (streamCursors builtins type column.name
        (extraction connector options w.source endpoint (w.watermark endpoint.name)).records)
        (t.watermark endpoint.name) ↔
      GreatestAlike builtins type (streamCursors builtins type column.name
        (extraction connector options w.source endpoint (w.watermark endpoint.name)).records)
        (keptCursor options endpoint (storedCursor endpoint (w.watermark endpoint.name)))) := by
  refine ⟨magnitude_streamCursors htype, ?_⟩
  obtain ⟨-, -, observation, hobserved, -, hcommitted⟩ :=
    Owned.alone ran (runEndpoint_yields hendpoint) trivial result rfl
  obtain ⟨hempty, hmaxima⟩ := observed_maximum hdeclared hobserved
  cases hmaximum : observation.maximumCursor with
  | none =>
    rw [hempty hmaximum]
    constructor
    · intro _
      exact ⟨fun _ hnone => (by cases hnone), fun _ _ _ _ hnone => (by cases hnone)⟩
    · intro _ _ _ _ hnone
      cases hnone
  | some maximum =>
    obtain ⟨hlast, hgreatest⟩ := hmaxima maximum hmaximum
    rw [(hcommitted maximum hmaximum).2]
    exact committedIsMaximal_iff hreads hlast hgreatest

end Runs

section Numbers

def readDigit (number : Option ℕ) (c : Char) : Option ℕ :=
  number.bind fun read => if c.isDigit then some (10 * read + (c.toNat - '0'.toNat)) else none

/-- Whole numbers without a sign, and nothing else. -/
def digitsOnly : Builtins where
  int text := if text.isEmpty then none else (text.toList.foldl readDigit (some 0)).map Nat.cast
  decimal _ := none
  float _ := none
  floatRepr _ := ""
  dateFromisoformat _ := none
  timeFromisoformat _ := none
  datetimeFromisoformat _ := none

def numberColumn : RawField := ⟨"number", .scalar .int64, .required, []⟩

def numbersEndpoint : Endpoint := ⟨"orders", some "number", none, true⟩

def numbersConnector : Connector where
  engine := .netsuiteSuiteql
  datetimeLiteral := some
  config := ⟨"netsuite", [numbersEndpoint], List.nodup_singleton _⟩

def numbered (number : ℤ) : SourceRecord := [("number", .scalar (.int number))]

/-- A first run over orders with these numbers. -/
def numbersStart (numbers : List ℤ) : Boundaries SourceRecord :=
  ⟨fun _ _ => ⟨numbers.map numbered, false⟩, fun _ => none⟩

def numbersRun (numbers : List ℤ) :
    Option (Except RunError EndpointRunResult × Boundaries SourceRecord) :=
  (runEndpoint (recordPort digitsOnly fun _ => [numberColumn]) resumingOptions
    numbersEndpoint).eval (providersExec numbersConnector) (numbersStart numbers)

theorem numbersEndpoint_declares :
    DeclaresCursor (fun _ => [numberColumn]) numbersEndpoint numberColumn .int64 :=
  ⟨rfl, List.nodup_singleton _, List.mem_singleton_self _, rfl, rfl⟩

/-- The run of the endpoint commits this cursor. -/
theorem numbersRun_commits {numbers : List ℤ} {committed : Option String}
    (h : (numbersRun numbers).map (fun run => (run.1.toBool, run.2.watermark "orders")) =
      some (true, committed)) : ∃ result t, Alone (sourceProviders numbersConnector)
        (runEndpoint (recordPort digitsOnly fun _ => [numberColumn]) resumingOptions
          numbersEndpoint) (numbersStart numbers) (some (.ok result)) t ∧
      t.watermark "orders" = committed := by
  obtain ⟨⟨out, t⟩, hrun, hboth⟩ := Option.map_eq_some_iff.mp h
  obtain ⟨hok, hcommitted⟩ := Prod.mk.inj hboth
  cases out with
  | error e => cases hok
  | ok result => exact ⟨result, t, .of_eval providersExec_step hrun, hcommitted⟩

/-- Of orders with the numbers 10 and 12 the run commits 12. -/
theorem twelve_is_maximal : ∃ result t, Alone (sourceProviders numbersConnector)
      (runEndpoint (recordPort digitsOnly fun _ => [numberColumn]) resumingOptions
        numbersEndpoint) (numbersStart [10, 12]) (some (.ok result)) t ∧
    t.watermark "orders" = some "12" ∧
    CommittedIsMaximal digitsOnly .int64 [.int 10, .int 12] (t.watermark "orders") := by
  obtain ⟨result, t, ran, hcommitted⟩ := @numbersRun_commits [10, 12] (some "12")
    (by decide +kernel)
  refine ⟨result, t, ran, hcommitted, ?_⟩
  have hcursors : streamCursors digitsOnly .int64 "number" [numbered 10, numbered 12] =
      [.int 10, .int 12] := by
    decide +kernel
  have hiff := (committed_cursor_maximal_iff digitsOnly (fun _ => [numberColumn]) numbersConnector
    resumingOptions numbersEndpoint numberColumn .int64 (List.mem_singleton_self _)
    numbersEndpoint_declares (by decide) (numbersStart [10, 12]) t result ran
    (by unfold ReadsBack; decide +kernel)).2
  have hgreatest : GreatestAlike digitsOnly .int64 [.int 10, .int 12] none := by
    refine ⟨?_, fun _ hnone => by cases hnone⟩
    intro last hlast htexts _ cursor hcursor x y hx hy
    have htwelve : last = .int 12 := by
      have htext := htexts (.int 12) (by decide)
      simp only [List.mem_cons, List.not_mem_nil, or_false] at hlast
      rcases hlast with rfl | rfl
      · exact absurd htext (by decide +kernel)
      · rfl
    subst htwelve
    simp only [List.mem_cons, List.not_mem_nil, or_false] at hcursor
    rcases hcursor with rfl | rfl <;> cases hx <;> cases hy <;> decide
  rw [← hcursors]
  apply hiff.mpr
  rw [show (extraction numbersConnector resumingOptions (numbersStart [10, 12]).source
    numbersEndpoint ((numbersStart [10, 12]).watermark numbersEndpoint.name)).records =
      [numbered 10, numbered 12] from rfl]
  have hfield : numberColumn.name = "number" := rfl
  rw [hfield, hcursors]
  exact hgreatest

/-- Of orders with the numbers 9 and 10 the run commits 9. -/
theorem nine_is_not_maximal : ∃ result t, Alone (sourceProviders numbersConnector)
      (runEndpoint (recordPort digitsOnly fun _ => [numberColumn]) resumingOptions
        numbersEndpoint) (numbersStart [9, 10]) (some (.ok result)) t ∧
    ¬ CommittedIsMaximal digitsOnly .int64
      (streamCursors digitsOnly .int64 "number" [numbered 9, numbered 10])
      (t.watermark "orders") := by
  obtain ⟨result, t, ran, hcommitted⟩ := @numbersRun_commits [9, 10] (some "9")
    (by decide +kernel)
  refine ⟨result, t, ran, ?_⟩
  intro hmaximal
  have hten : Scalar.int 10 ∈ streamCursors digitsOnly .int64 "number"
      [numbered 9, numbered 10] := by
    decide +kernel
  have hread : readMagnitude digitsOnly .int64 "9" = some 9 := by
    decide +kernel
  have hle := hmaximal "9" hcommitted (.int 10) hten 10 9 rfl hread
  exact absurd hle (by decide)

end Numbers

end Dander.Runtime
