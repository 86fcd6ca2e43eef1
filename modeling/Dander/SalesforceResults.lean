import Dander.CsvRendering
import Dander.Identifiers

/-!
# Results of Salesforce bulk queries

The pages of a query job are CSV texts. Each is split into lines before it is read, and checked
against the header that counts its records; another header locates the next page.
-/
namespace Dander.Salesforce

open CsvText Generator

section Source

inductive ResultsError where
  /-- An `EnterpriseSourceError`. -/
  | source (message : String)
  | csv (error : CsvText.Error)
  deriving DecidableEq

/-- `^[A-Za-z_][A-Za-z0-9_]*$` -/
def isFieldName (text : String) : Bool :=
  match text.toList with
  | [] => false
  | first :: rest => (isAlphanumeric first && !first.isDigit || first == '_') &&
    rest.all fun c => isAlphanumeric c || c == '_'

structure RawField where
  name : String
  required : Bool
  valid : isFieldName name = true

/-- An endpoint with its header-cursor pagination. -/
structure Endpoint where
  name : String
  rawSchema : List RawField
  nextCursorHeader : String
  terminalValue : String

/-- A page, with the values of the two headers if it has them. -/
structure Response where
  text : List Char
  numberOfRecords : Option String
  locator : Option String

/-- A row before its values are cast. -/
abbrev CsvRow := List (String × String)

/-- What the source takes from Python: `repr` of texts, and `int` of a header. -/
structure PythonTexts where
  repr : String → String
  int : String → Option ℤ

variable {α : Type} (python : PythonTexts) (endpoint : Endpoint)

def fail {β : Type} (message : String) : Except ResultsError β := .error (.source message)

/-- `sorted(names)[0]`, if there is one. -/
def firstSorted (names : List String) : Option String :=
  (names.insertionSort fun a b => a ≤ b).head?

/-- `_validate_salesforce_csv_fields` -/
def validateCsvFields (fieldnames : List String) : Except ResultsError Unit :=
  let declared := endpoint.rawSchema.map RawField.name
  let required := (endpoint.rawSchema.filter RawField.required).map RawField.name
  if fieldnames = [] ∨ "" ∈ fieldnames ∨ ¬ fieldnames.Nodup then
    fail s!"Endpoint {python.repr endpoint.name} returned invalid Salesforce CSV headers"
  else
    match firstSorted (fieldnames.filter fun name => decide (name ∉ declared)) with
    | some unknown => fail (s!"Endpoint {python.repr endpoint.name} returned undeclared " ++
        s!"Salesforce field {python.repr unknown}")
    | none =>
      match firstSorted (required.filter fun name => decide (name ∉ fieldnames)) with
      | some missing => fail (s!"Endpoint {python.repr endpoint.name} omitted required " ++
          s!"Salesforce field {python.repr missing}")
      | none => .ok ()

/-- `fieldnames[0].removeprefix("\ufeff")` -/
def removeMark : List (List Char) → List (List Char)
  | (first :: name) :: rest =>
    if first.toNat = 65279 then name :: rest else (first :: name) :: rest
  | names => names

/-- A record as a row, if it has a value for each field and no further ones. -/
def rowOf (fieldnames : List String) (index : ℕ) (record : List (List Char)) :
    Except ResultsError CsvRow :=
  if record.length ≠ fieldnames.length then
    fail s!"Endpoint {python.repr endpoint.name} returned malformed CSV row {index}"
  else .ok (fieldnames.zip (record.map String.ofList))

/-- `_validate_salesforce_page_count` -/
def validatePageCount (response : Response) (actual : ℕ) : Except ResultsError Unit :=
  let mismatch := s!"Endpoint {python.repr endpoint.name} Salesforce page count did not match " ++
    "its CSV rows"
  match response.numberOfRecords with
  | none => fail mismatch
  | some raw =>
    match python.int raw with
    | none => fail (s!"Endpoint {python.repr endpoint.name} returned an invalid Salesforce page " ++
        "count")
    | some expected => if expected ≠ actual then fail mismatch else .ok ()

variable (normalize : CsvRow → ℕ → Except ResultsError α)

/-- The rows of a page: `csv.DictReader` leaves out the empty records behind its header. -/
def yieldRows (fieldnames : List String) (records : List (List (List Char))) :
    Trace ResultsError α :=
  yieldAll (fun record : List (List Char) × ℕ => do
    let row ← rowOf python endpoint fieldnames record.2 record.1
    normalize row record.2) records.zipIdx

def withoutEmpty (records : List (List (List Char))) : List (List (List Char)) :=
  records.filter fun record => decide (record ≠ [])

/-- One page, of which `normalize` casts the values. -/
def readPage (response : Response) : Trace ResultsError α :=
  let read := records .start (splitlines response.text)
  match read.items with
  | [] =>
    match read.outcome with
    | .error error => .raised (.csv error)
    | .ok () => ⟨[], validateCsvFields python endpoint []⟩
  | header :: rest =>
    let fieldnames := (removeMark header).map String.ofList
    let rows := withoutEmpty rest
    Trace.andThen ⟨[], validateCsvFields python endpoint fieldnames⟩
      ((yieldRows python endpoint normalize fieldnames rows).andThen
        (Trace.andThen ⟨[], read.outcome.mapError .csv⟩
          ⟨[], validatePageCount python endpoint response rows.length⟩))

/-- Where the next page is, and the locators so far. -/
structure Cursor where
  locator : Option String
  seen : List String

variable (server : Option String → Response)

def round (cursor : Cursor) : Trace ResultsError α × Option Cursor :=
  let response := server cursor.locator
  let page := readPage python endpoint normalize response
  match response.locator with
  | none => (page.andThen (.raised (.source (s!"Endpoint {python.repr endpoint.name} response " ++
      s!"omitted {python.repr endpoint.nextCursorHeader}"))), none)
  | some next =>
    if next = endpoint.terminalValue then (page, none)
    else if next ∈ cursor.seen then
      (page.andThen (.raised (.source
        s!"Endpoint {python.repr endpoint.name} repeated a Salesforce result locator")), none)
    else (page, some ⟨some next, cursor.seen ++ [next]⟩)

/-- `_salesforce_results`, if it ends within so many pages. -/
def salesforceResults (pages : ℕ) : Option (Trace ResultsError α) :=
  loop (round python endpoint normalize server) pages ⟨none, []⟩

end Source

section Rendering

/-- A table of string values, with columns that the endpoint takes. -/
structure Table (python : PythonTexts) (endpoint : Endpoint) where
  names : List String
  declared : validateCsvFields python endpoint names = .ok ()

variable {python : PythonTexts} {endpoint : Endpoint}

/-- Some rows of the table as a rendered page. -/
structure Page (table : Table python endpoint) where
  header : List Cell
  header_names : header.map Cell.value = table.names.map String.toList
  rows : List (List Cell)
  rectangular : ∀ row ∈ rows, row.length = table.names.length
  terminated : Bool

variable {table : Table python endpoint}

def Page.text (page : Page table) : List Char :=
  renderLines ((page.header :: page.rows).map renderRow) page.terminated

/-- The rows of the table that the page has. -/
def Page.csvRows (page : Page table) : List CsvRow :=
  page.rows.map fun row => table.names.zip (row.map fun cell => String.ofList cell.value)

/-- The response has the page, its count of records, and the locator of the next page. -/
def Renders (response : Response) (page : Page table) (locator : String) : Prop :=
  response.text = page.text ∧
    (∃ raw, response.numberOfRecords = some raw ∧ python.int raw = some (page.rows.length : ℤ)) ∧
    response.locator = some locator

/-- The server has the pages, one behind another, with locators that it does not repeat. -/
inductive Served (server : Option String → Response) : Cursor → List (Page table) → Prop where
  | last (cursor : Cursor) (page : Page table)
    (renders : Renders (server cursor.locator) page endpoint.terminalValue) :
    Served server cursor [page]
  | next (cursor : Cursor) (page : Page table) (locator : String) (rest : List (Page table))
    (renders : Renders (server cursor.locator) page locator)
    (terminal : locator ≠ endpoint.terminalValue) (fresh : locator ∉ cursor.seen)
    (served : Served server ⟨some locator, cursor.seen ++ [locator]⟩ rest) :
    Served server cursor (page :: rest)

/-- No value has a line break, no row is an empty line, and no name or value is too long. -/
structure Page.Faithful (page : Page table) : Prop where
  header : RowFits page.header
  fits : ∀ row ∈ page.rows, RowFits row
  lines : ∀ row ∈ page.rows, renderRow row ≠ []
  unbroken : ∀ row ∈ page.rows, ∀ cell ∈ row, Unbroken cell.value

end Rendering

section Traces

variable {α ε : Type}

theorem andThen_nil (trace : Trace ε α) : trace.andThen .nil = trace := by
  obtain ⟨items, outcome⟩ := trace
  cases outcome with
  | error error => rfl
  | ok _ => rw [Trace.andThen_of_ok rfl]; exact congrArg (Trace.mk · _) (List.append_nil items)

theorem ok_of_andThen {first second : Trace ε α} (h : (first.andThen second).outcome = .ok ()) :
    first.outcome = .ok () ∧ second.outcome = .ok () := by
  cases hfirst : first.outcome with
  | error error =>
    rw [Trace.andThen_of_error hfirst, hfirst] at h
    cases h
  | ok _ =>
    rw [Trace.andThen_of_ok hfirst] at h
    exact ⟨rfl, h⟩

theorem mem_items_of_andThen {first second : Trace ε α} {item : α}
    (h : item ∈ (first.andThen second).items) : item ∈ first.items ∨ item ∈ second.items := by
  cases hfirst : first.outcome with
  | error error =>
    rw [Trace.andThen_of_error hfirst] at h
    exact .inl h
  | ok _ =>
    rw [Trace.andThen_of_ok hfirst] at h
    exact List.mem_append.mp h

/-- Traces behind one another that return yield all their items. -/
theorem items_of_foldr {traces : List (Trace ε α)}
    (h : (traces.foldr Trace.andThen .nil).outcome = .ok ()) :
    (∀ trace ∈ traces, trace.outcome = .ok ()) ∧
      (traces.foldr Trace.andThen .nil).items = traces.flatMap Trace.items := by
  induction traces with
  | nil => exact ⟨nofun, rfl⟩
  | cons trace rest ih =>
    rw [List.foldr_cons] at h ⊢
    obtain ⟨hfirst, hrest⟩ := ok_of_andThen h
    obtain ⟨hall, hitems⟩ := ih hrest
    refine ⟨?_, ?_⟩
    · intro other hother
      rcases List.mem_cons.mp hother with rfl | hin
      · exact hfirst
      · exact hall other hin
    · rw [Trace.andThen_of_ok hfirst, hitems, List.flatMap_cons]

theorem foldr_of_ok {traces : List (Trace ε α)}
    (h : ∀ trace ∈ traces, trace.outcome = .ok ()) :
    traces.foldr Trace.andThen .nil = ⟨traces.flatMap Trace.items, .ok ()⟩ := by
  induction traces with
  | nil => rfl
  | cons trace rest ih =>
    have hrest := ih fun other hother => h other (List.mem_cons_of_mem trace hother)
    rw [List.foldr_cons, hrest, Trace.andThen_of_ok (h trace List.mem_cons_self),
      List.flatMap_cons]

end Traces

section Names

variable {python : PythonTexts} {endpoint : Endpoint}

theorem firstSorted_eq_none {names : List String} (h : firstSorted names = none) :
    names = [] := by
  have hsorted := List.head?_eq_none_iff.mp h
  have hlength := (List.perm_insertionSort (fun a b : String => a ≤ b) names).length_eq
  rw [hsorted] at hlength
  exact List.length_eq_zero_iff.mp hlength.symm

theorem isFieldName_of_mem (table : Table python endpoint) :
    ∀ name ∈ table.names, isFieldName name = true := by
  have hdeclared := table.declared
  unfold validateCsvFields at hdeclared
  dsimp only at hdeclared
  split at hdeclared
  · cases hdeclared
  · split at hdeclared
    · cases hdeclared
    next hnone =>
      have hall := List.filter_eq_nil_iff.mp (firstSorted_eq_none hnone)
      intro name hname
      have hmem : name ∈ endpoint.rawSchema.map RawField.name := by
        have hnot := hall name hname
        rwa [decide_eq_true_eq, not_not] at hnot
      obtain ⟨field, -, rfl⟩ := List.mem_map.mp hmem
      exact field.valid

theorem names_ne_nil (table : Table python endpoint) : table.names ≠ [] := by
  intro hnil
  have hdeclared := table.declared
  unfold validateCsvFields at hdeclared
  dsimp only at hdeclared
  rw [if_pos (.inl hnil)] at hdeclared
  cases hdeclared

theorem chars_of_isFieldName {name : String} (h : isFieldName name = true) :
    name.toList ≠ [] ∧ ∀ c ∈ name.toList, (isAlphanumeric c || c == '_') = true := by
  unfold isFieldName at h
  split at h
  · cases h
  next first rest hname =>
    rw [Bool.and_eq_true, List.all_eq_true] at h
    rw [hname]
    refine ⟨List.cons_ne_nil _ _, ?_⟩
    intro c hc
    rcases List.mem_cons.mp hc with rfl | hin
    · simp only [Bool.or_eq_true, Bool.and_eq_true] at h ⊢
      exact h.1.imp_left And.left
    · exact h.2 c hin

theorem range_of_nameChar {c : Char} (h : (isAlphanumeric c || c == '_') = true) :
    48 ≤ c.toNat ∧ c.toNat ≤ 122 := by
  simp only [isAlphanumeric, isLowerOrDigit, Bool.or_eq_true, Bool.and_eq_true, decide_eq_true_eq,
    beq_iff_eq] at h
  rcases h with ((h | h) | h) | rfl
  · omega
  · omega
  · omega
  · decide

theorem isBoundary_of_range {c : Char} (h : 48 ≤ c.toNat ∧ c.toNat ≤ 122) :
    isBoundary c = false := by
  simp only [isBoundary, List.contains_cons, List.contains_nil, Bool.or_false, Bool.or_eq_false_iff,
    beq_eq_false_iff_ne]
  omega

theorem unbroken_name {name : String} (h : isFieldName name = true) : Unbroken name.toList :=
  fun c hc => isBoundary_of_range (range_of_nameChar ((chars_of_isFieldName h).2 c hc))

/-- Field names have no byte order mark in front. -/
theorem removeMark_names {names : List String} (h : ∀ name ∈ names, isFieldName name = true) :
    removeMark (names.map String.toList) = names.map String.toList := by
  cases names with
  | nil => rfl
  | cons name rest =>
    obtain ⟨hne, hchars⟩ := chars_of_isFieldName (h name List.mem_cons_self)
    obtain ⟨first, chars, hname⟩ := List.exists_cons_of_ne_nil hne
    have hfirst := range_of_nameChar (hchars first (by rw [hname]; exact List.mem_cons_self))
    rw [List.map_cons, hname, removeMark, if_neg (by omega)]

end Names

section Pages

variable {α : Type} {python : PythonTexts} {endpoint : Endpoint} {table : Table python endpoint}
  {page : Page table} {response : Response} {locator : String}

theorem header_ne_nil (page : Page table) : page.header ≠ [] := by
  intro hnil
  have hnames := page.header_names
  rw [hnil, List.map_nil] at hnames
  exact names_ne_nil table (List.map_eq_nil_iff.mp hnames.symm)

theorem row_ne_nil (page : Page table) {row : List Cell} (hrow : row ∈ page.rows) : row ≠ [] := by
  rintro rfl
  have hlength := page.rectangular [] hrow
  exact names_ne_nil table (List.length_eq_zero_iff.mp hlength.symm)

theorem unbroken_header (page : Page table) : ∀ cell ∈ page.header, Unbroken cell.value := by
  intro cell hcell
  have hmem : cell.value ∈ table.names.map String.toList := by
    rw [← page.header_names]
    exact List.mem_map_of_mem hcell
  obtain ⟨name, hname, hvalue⟩ := List.mem_map.mp hmem
  rw [← hvalue]
  exact unbroken_name (isFieldName_of_mem table name hname)

/-- The header line has a name on it. -/
theorem renderRow_header (page : Page table) : renderRow page.header ≠ [] := by
  obtain ⟨cell, rest, hheader⟩ := List.exists_cons_of_ne_nil (header_ne_nil page)
  have hvalue : cell.value ≠ [] := by
    have hmem : cell.value ∈ table.names.map String.toList := by
      rw [← page.header_names, hheader]
      exact List.mem_map_of_mem List.mem_cons_self
    obtain ⟨name, hname, hsame⟩ := List.mem_map.mp hmem
    rw [← hsame]
    exact (chars_of_isFieldName (isFieldName_of_mem table name hname)).1
  have htext : cell.text ≠ [] := by
    unfold Cell.text
    split
    · exact List.cons_ne_nil _ _
    · exact hvalue
  rw [hheader]
  cases rest with
  | nil => exact htext
  | cons next rest =>
    intro hempty
    exact htext (List.append_eq_nil_iff.mp hempty).1

/-- The lines of a page without line breaks: an empty last one may be missing. -/
theorem splitlines_page (page : Page table)
    (hunbroken : ∀ row ∈ page.rows, ∀ cell ∈ row, Unbroken cell.value) :
    ∃ kept, splitlines page.text = (page.header :: kept).map renderRow ∧
      (kept = page.rows ∨ ∃ last, page.rows = kept ++ [last] ∧ renderRow last = []) := by
  have hall : ∀ row ∈ page.header :: page.rows, ∀ cell ∈ row, Unbroken cell.value := by
    intro row hrow
    rcases List.mem_cons.mp hrow with rfl | hin
    · exact unbroken_header page
    · exact hunbroken row hin
  obtain ⟨lines, hlines, hkept⟩ := splitlines_renderLines (List.cons_ne_nil _ _) hall
    page.terminated
  rcases hkept with rfl | ⟨last, hlast, hempty⟩
  · exact ⟨page.rows, hlines, .inl rfl⟩
  · cases lines with
    | nil =>
      have hheader : page.header = last := (List.cons.inj hlast).1
      rw [← hheader] at hempty
      exact absurd hempty (renderRow_header page)
    | cons first kept =>
      obtain ⟨rfl, hrows⟩ := List.cons.inj hlast
      exact ⟨kept, hlines, .inr ⟨last, hrows, hempty⟩⟩

theorem withoutEmpty_kept {kept rows : List (List Cell)}
    (h : kept = rows ∨ ∃ last, rows = kept ++ [last] ∧ renderRow last = []) :
    withoutEmpty (kept.map recordOf) = withoutEmpty (rows.map recordOf) := by
  rcases h with rfl | ⟨last, rfl, hempty⟩
  · rfl
  · have hlast : recordOf last = [] := if_pos hempty
    simp [withoutEmpty, hlast]

/-- A page whose fields fit is read as its records, without the empty ones. -/
theorem readPage_of_fits (normalize : CsvRow → ℕ → Except ResultsError α)
    (hrenders : Renders response page locator) (hheader : RowFits page.header)
    (hfits : ∀ row ∈ page.rows, RowFits row)
    (hunbroken : ∀ row ∈ page.rows, ∀ cell ∈ row, Unbroken cell.value) :
    readPage python endpoint normalize response =
      (yieldRows python endpoint normalize table.names
          (withoutEmpty (page.rows.map recordOf))).andThen
        ⟨[], validatePageCount python endpoint response
          (withoutEmpty (page.rows.map recordOf)).length⟩ := by
  obtain ⟨kept, hsplit, hkept⟩ := splitlines_page page hunbroken
  have hsubset : ∀ row ∈ kept, row ∈ page.rows := by
    intro row hrow
    rcases hkept with rfl | ⟨last, hrows, -⟩
    · exact hrow
    · rw [hrows]
      exact List.mem_append_left _ hrow
  have hread : records .start (splitlines response.text) =
      ⟨recordOf page.header :: kept.map recordOf, .ok ()⟩ := by
    rw [hrenders.1, hsplit]
    apply records_rows
    · intro row hrow
      rcases List.mem_cons.mp hrow with rfl | hin
      · exact header_ne_nil page
      · exact row_ne_nil page (hsubset row hin)
    · intro row hrow
      rcases List.mem_cons.mp hrow with rfl | hin
      · exact hheader
      · exact hfits row (hsubset row hin)
  have hnames : (removeMark (recordOf page.header)).map String.ofList = table.names := by
    rw [recordOf, if_neg (renderRow_header page), page.header_names,
      removeMark_names (isFieldName_of_mem table), List.map_map]
    have hsame : String.ofList ∘ String.toList = id := funext fun _ => String.ofList_toList
    rw [hsame, List.map_id]
  unfold readPage
  simp only [hread, hnames, table.declared]
  rw [withoutEmpty_kept hkept]
  rfl

/-- A page with a field that does not fit is not read to its end. -/
theorem readPage_of_long (normalize : CsvRow → ℕ → Except ResultsError α)
    (hrenders : Renders response page locator)
    (hunbroken : ∀ row ∈ page.rows, ∀ cell ∈ row, Unbroken cell.value)
    (hlong : ∃ row ∈ page.header :: page.rows, ¬ RowFits row) :
    (readPage python endpoint normalize response).outcome ≠ .ok () := by
  obtain ⟨kept, hsplit, hkept⟩ := splitlines_page page hunbroken
  have hkeptLong : ∃ row ∈ page.header :: kept, ¬ RowFits row := by
    obtain ⟨row, hrow, hnot⟩ := hlong
    refine ⟨row, ?_, hnot⟩
    rcases List.mem_cons.mp hrow with rfl | hin
    · exact List.mem_cons_self
    · refine List.mem_cons_of_mem _ ?_
      rcases hkept with rfl | ⟨last, hrows, hempty⟩
      · exact hin
      · rw [hrows, List.mem_append, List.mem_singleton] at hin
        rcases hin with hin | rfl
        · exact hin
        · have hne : row ≠ [] := by
            apply row_ne_nil page
            rw [hrows]
            exact List.mem_append_right _ List.mem_cons_self
          exact absurd (rowFits_of_empty hne hempty) hnot
  have hrows : ∀ row ∈ page.header :: kept, row ≠ [] := by
    intro row hrow
    rcases List.mem_cons.mp hrow with rfl | hin
    · exact header_ne_nil page
    · apply row_ne_nil page
      rcases hkept with rfl | ⟨last, hsame, -⟩
      · exact hin
      · rw [hsame]
        exact List.mem_append_left _ hin
  have hread := records_rows_error hrows hkeptLong
  rw [← hsplit, ← hrenders.1] at hread
  intro hok
  unfold readPage at hok
  dsimp only at hok
  split at hok
  · rw [hread] at hok
    cases hok
  · have hinner := (ok_of_andThen (ok_of_andThen (ok_of_andThen hok).2).2).1
    rw [hread] at hinner
    cases hinner

theorem withoutEmpty_rows (hlines : ∀ row ∈ page.rows, renderRow row ≠ []) :
    withoutEmpty (page.rows.map recordOf) = page.rows.map fun row => row.map Cell.value := by
  have hrecord : page.rows.map recordOf = page.rows.map fun row => row.map Cell.value := by
    apply List.map_congr_left
    intro row hrow
    rw [recordOf, if_neg (hlines row hrow)]
  rw [hrecord, withoutEmpty, List.filter_eq_self]
  intro record hrecord
  obtain ⟨row, hrow, rfl⟩ := List.mem_map.mp hrecord
  exact decide_eq_true fun hnil => row_ne_nil page hrow (List.map_eq_nil_iff.mp hnil)

/-- Every row is counted only if none is an empty line. -/
theorem lines_of_length (h : (withoutEmpty (page.rows.map recordOf)).length = page.rows.length) :
    ∀ row ∈ page.rows, renderRow row ≠ [] := by
  intro row hrow hempty
  have hlength : (withoutEmpty (page.rows.map recordOf)).length =
      (page.rows.map recordOf).length := by
    rw [List.length_map]
    exact h
  have hall := List.length_filter_eq_length_iff.mp hlength
  exact of_decide_eq_true (hall (recordOf row) (List.mem_map_of_mem hrow)) (if_pos hempty)

theorem csvRow_of_mem {row : List Cell} (hrow : row ∈ page.rows) :
    table.names.zip (row.map fun cell => String.ofList cell.value) ∈ page.csvRows :=
  List.mem_map_of_mem hrow

/-- The rows of a page without empty lines. -/
theorem yieldRows_rows (normalize : CsvRow → ℕ → Except ResultsError α) (page : Page table) :
    yieldRows python endpoint normalize table.names
        (page.rows.map fun row => row.map Cell.value) =
      yieldAll (fun row : CsvRow × ℕ => normalize row.1 row.2) page.csvRows.zipIdx := by
  have hgeneral : ∀ (rows : List (List Cell)) (start : ℕ),
      (∀ row ∈ rows, row.length = table.names.length) →
      yieldAll (fun record : List (List Char) × ℕ => do
          let row ← rowOf python endpoint table.names record.2 record.1
          normalize row record.2) ((rows.map fun row => row.map Cell.value).zipIdx start) =
        yieldAll (fun row : CsvRow × ℕ => normalize row.1 row.2)
          ((rows.map fun row => table.names.zip
            (row.map fun cell => String.ofList cell.value)).zipIdx start) := by
    intro rows
    induction rows with
    | nil => exact fun _ _ => rfl
    | cons row rows ih =>
      intro start hlength
      have hrest := ih (start + 1) fun other hother =>
        hlength other (List.mem_cons_of_mem row hother)
      have hrow : rowOf python endpoint table.names start (row.map Cell.value) =
          .ok (table.names.zip (row.map fun cell => String.ofList cell.value)) := by
        have hsame : (row.map Cell.value).length = table.names.length := by
          rw [List.length_map]
          exact hlength row List.mem_cons_self
        rw [rowOf, if_neg (not_not.mpr hsame), List.map_map]
        rfl
      simp only [List.map_cons, List.zipIdx_cons, yieldAll, hrow, Execution.ok_bind, hrest]
  exact hgeneral page.rows 0 page.rectangular

/-- A faithful page yields its rows, as they are cast. -/
theorem readPage_of_faithful (normalize : CsvRow → ℕ → Except ResultsError α)
    (hrenders : Renders response page locator) (hfaithful : page.Faithful) :
    readPage python endpoint normalize response =
      yieldAll (fun row : CsvRow × ℕ => normalize row.1 row.2) page.csvRows.zipIdx := by
  have hcount : validatePageCount python endpoint response
      (withoutEmpty (page.rows.map recordOf)).length = .ok () := by
    obtain ⟨-, ⟨raw, hraw, hint⟩, -⟩ := hrenders
    have hlength : (withoutEmpty (page.rows.map recordOf)).length = page.rows.length := by
      rw [withoutEmpty_rows hfaithful.lines, List.length_map]
    simp only [validatePageCount, hraw, hint, hlength]
    exact if_neg (not_not.mpr rfl)
  rw [readPage_of_fits normalize hrenders hfaithful.header hfaithful.fits hfaithful.unbroken,
    hcount, withoutEmpty_rows hfaithful.lines, yieldRows_rows]
  exact andThen_nil _

/-- A row as it is, before casting. -/
def uncast (row : CsvRow) (_ : ℕ) : Except ResultsError CsvRow := .ok row

theorem yieldAll_uncast (rows : List CsvRow) (start : ℕ) :
    yieldAll (fun row : CsvRow × ℕ => uncast row.1 row.2) (rows.zipIdx start) =
      ⟨rows, .ok ()⟩ := by
  induction rows generalizing start with
  | nil => rfl
  | cons row rows ih =>
    rw [List.zipIdx_cons, yieldAll, ih]
    rfl

/-- No value that is yielded has a line break. -/
theorem unbroken_readPage (response : Response) :
    ∀ row ∈ (readPage python endpoint uncast response).items, ∀ entry ∈ row,
      Unbroken entry.2.toList := by
  have hamong : ∀ record ∈ (records .start (splitlines response.text)).items,
      ∀ field ∈ record, Unbroken field :=
    among_records Reader.Among.start (unbroken_of_mem_splitlines response.text)
  have hyield : ∀ (fieldnames : List String) (rows : List (List (List Char))) (start : ℕ),
      (∀ record ∈ rows, ∀ field ∈ record, Unbroken field) →
      ∀ row ∈ (yieldAll (fun record : List (List Char) × ℕ => do
          let row ← rowOf python endpoint fieldnames record.2 record.1
          uncast row record.2) (rows.zipIdx start)).items, ∀ entry ∈ row,
        Unbroken entry.2.toList := by
    intro fieldnames rows
    induction rows with
    | nil => exact fun _ _ => nofun
    | cons record rows ih =>
      intro start hrows row hrow entry hentry
      have hrest := ih (start + 1) fun other hother =>
        hrows other (List.mem_cons_of_mem record hother)
      rw [List.zipIdx_cons, yieldAll] at hrow
      unfold rowOf at hrow
      by_cases hlength : record.length = fieldnames.length
      · simp only [hlength, ne_eq, not_true, if_false, Execution.ok_bind, uncast] at hrow
        rw [Trace.andThen_of_ok rfl] at hrow
        rcases List.mem_append.mp hrow with hfirst | hlater
        · obtain rfl := List.mem_singleton.mp hfirst
          have hvalue : entry.2 ∈ record.map String.ofList := (List.of_mem_zip hentry).2
          obtain ⟨field, hfield, hsame⟩ := List.mem_map.mp hvalue
          rw [← hsame, String.toList_ofList]
          exact hrows record List.mem_cons_self field hfield
        · exact hrest row hlater entry hentry
      · simp only [hlength, ne_eq, not_false_iff, if_true, fail] at hrow
        cases hrow
  intro row hrow
  unfold readPage at hrow
  dsimp only at hrow
  split at hrow
  · split at hrow
    · cases hrow
    · cases hrow
  next header rest hitems =>
    have hrest : ∀ record ∈ withoutEmpty rest, ∀ field ∈ record, Unbroken field := by
      intro record hrecord
      refine hamong record ?_
      rw [hitems]
      exact List.mem_cons_of_mem _ (List.mem_of_mem_filter hrecord)
    refine hyield ((removeMark header).map String.ofList) (withoutEmpty rest) 0 hrest row ?_
    rcases mem_items_of_andThen hrow with hnone | hrow
    · cases hnone
    · rcases mem_items_of_andThen hrow with hin | hnone
      · exact hin
      · rcases mem_items_of_andThen hnone with hnone | hnone <;> cases hnone

/-- A page that is read to its end and whose values have no line breaks is faithful. -/
theorem faithful_of_ok (hrenders : Renders response page locator)
    (hunbroken : ∀ row ∈ page.rows, ∀ cell ∈ row, Unbroken cell.value)
    (hok : (readPage python endpoint uncast response).outcome = .ok ()) : page.Faithful := by
  have hfits : ∀ row ∈ page.header :: page.rows, RowFits row := by
    by_contra hnot
    push Not at hnot
    exact readPage_of_long uncast hrenders hunbroken hnot hok
  have hheader := hfits page.header List.mem_cons_self
  have hrows : ∀ row ∈ page.rows, RowFits row :=
    fun row hrow => hfits row (List.mem_cons_of_mem _ hrow)
  refine ⟨hheader, hrows, ?_, hunbroken⟩
  rw [readPage_of_fits uncast hrenders hheader hrows hunbroken] at hok
  have hcount : validatePageCount python endpoint response
      (withoutEmpty (page.rows.map recordOf)).length = .ok () := (ok_of_andThen hok).2
  obtain ⟨-, ⟨raw, hraw, hint⟩, -⟩ := hrenders
  apply lines_of_length
  simp only [validatePageCount, hraw, hint] at hcount
  split at hcount
  · cases hcount
  next hsame => exact_mod_cast (not_not.mp hsame).symm

end Pages

section Results

variable {α : Type} {python : PythonTexts} {endpoint : Endpoint} {table : Table python endpoint}
  {server : Option String → Response} {cursor : Cursor} {pages : List (Page table)}

/-- What a page's response is read as. -/
def Reads (normalize : CsvRow → ℕ → Except ResultsError α) (page : Page table)
    (trace : Trace ResultsError α) : Prop :=
  ∃ response locator, Renders response page locator ∧
    trace = readPage python endpoint normalize response

/-- The loop ends with the last page, having read the pages one after another. -/
theorem loop_served (normalize : CsvRow → ℕ → Except ResultsError α)
    (h : Served server cursor pages) : ∃ traces,
      loop (round python endpoint normalize server) pages.length cursor =
        some (traces.foldr Trace.andThen .nil) ∧ List.Forall₂ (Reads normalize) pages traces := by
  induction h with
  | last cursor page renders =>
    refine ⟨[readPage python endpoint normalize (server cursor.locator)], ?_,
      .cons ⟨_, _, renders, rfl⟩ .nil⟩
    have hround : round python endpoint normalize server cursor =
        (readPage python endpoint normalize (server cursor.locator), none) := by
      simp only [round, renders.2.2, if_true]
    simp only [List.length_singleton, loop, hround, List.foldr_cons, List.foldr_nil, andThen_nil]
  | next cursor page locator rest renders terminal fresh served ih =>
    obtain ⟨traces, hloop, hreads⟩ := ih
    refine ⟨readPage python endpoint normalize (server cursor.locator) :: traces, ?_,
      .cons ⟨_, _, renders, rfl⟩ hreads⟩
    have hround : round python endpoint normalize server cursor =
        (readPage python endpoint normalize (server cursor.locator),
          some ⟨some locator, cursor.seen ++ [locator]⟩) := by
      simp only [round, renders.2.2, terminal, fresh, if_false]
    simp only [List.length_cons, loop, hround, hloop, Option.map_some, List.foldr_cons]
    cases houtcome : (readPage python endpoint normalize (server cursor.locator)).outcome with
    | error error => rw [Trace.andThen_of_error houtcome]
    | ok _ => rfl

theorem exists_trace {normalize : CsvRow → ℕ → Except ResultsError α}
    {traces : List (Trace ResultsError α)} (h : List.Forall₂ (Reads normalize) pages traces)
    {page : Page table} (hpage : page ∈ pages) : ∃ trace ∈ traces, Reads normalize page trace := by
  induction h with
  | nil => cases hpage
  | cons hreads _ ih =>
    rcases List.mem_cons.mp hpage with rfl | hin
    · exact ⟨_, List.mem_cons_self, hreads⟩
    · obtain ⟨trace, htrace, hreads⟩ := ih hin
      exact ⟨trace, List.mem_cons_of_mem _ htrace, hreads⟩

/-- Faithful pages yield their rows, as they are cast, behind one another. -/
theorem foldr_of_faithful {normalize : CsvRow → ℕ → Except ResultsError α}
    {traces : List (Trace ResultsError α)} (h : List.Forall₂ (Reads normalize) pages traces)
    (hfaithful : ∀ page ∈ pages, page.Faithful) :
    traces = pages.map fun page =>
      yieldAll (fun row : CsvRow × ℕ => normalize row.1 row.2) page.csvRows.zipIdx := by
  induction h with
  | nil => rfl
  | cons hreads _ ih =>
    obtain ⟨response, locator, hrenders, rfl⟩ := hreads
    rw [List.map_cons, readPage_of_faithful normalize hrenders (hfaithful _ List.mem_cons_self),
      ih fun page hpage => hfaithful page (List.mem_cons_of_mem _ hpage)]

/-- No value has a line break if all rows are yielded. -/
theorem unbroken_of_yielded {traces : List (Trace ResultsError CsvRow)}
    (h : List.Forall₂ (Reads uncast) pages traces)
    (hitems : pages.flatMap Page.csvRows = traces.flatMap Trace.items) {page : Page table}
    (hpage : page ∈ pages) : ∀ row ∈ page.rows, ∀ cell ∈ row, Unbroken cell.value := by
  have hvalues : ∀ row ∈ traces.flatMap Trace.items, ∀ entry ∈ row, Unbroken entry.2.toList := by
    clear hitems hpage
    induction h with
    | nil => exact nofun
    | cons hreads _ ih =>
      obtain ⟨response, locator, -, rfl⟩ := hreads
      intro row hrow
      rcases List.mem_append.mp hrow with hin | hlater
      · exact unbroken_readPage response row hin
      · exact ih row hlater
  intro row hrow cell hcell
  have hin : table.names.zip (row.map fun cell => String.ofList cell.value) ∈
      traces.flatMap Trace.items := by
    rw [← hitems]
    exact List.mem_flatMap.mpr ⟨page, hpage, csvRow_of_mem hrow⟩
  have hlength : (row.map fun cell => String.ofList cell.value).length ≤ table.names.length := by
    rw [List.length_map, page.rectangular row hrow]
  have hvalue : String.ofList cell.value ∈
      (table.names.zip (row.map fun cell => String.ofList cell.value)).map Prod.snd := by
    rw [List.map_snd_zip hlength]
    exact List.mem_map_of_mem hcell
  obtain ⟨entry, hentry, hsame⟩ := List.mem_map.mp hvalue
  have hunbroken := hvalues _ hin entry hentry
  rwa [hsame, String.toList_ofList] at hunbroken

/-- The pages yield the rows of the table exactly if all of them are faithful. -/
theorem foldr_reads_iff {traces : List (Trace ResultsError CsvRow)}
    (h : List.Forall₂ (Reads uncast) pages traces) :
    traces.foldr Trace.andThen .nil = ⟨pages.flatMap Page.csvRows, .ok ()⟩ ↔
      ∀ page ∈ pages, page.Faithful := by
  constructor
  · intro hall page hpage
    have hok : (traces.foldr Trace.andThen .nil).outcome = .ok () := by rw [hall]
    obtain ⟨houtcomes, hitems⟩ := items_of_foldr hok
    rw [hall] at hitems
    obtain ⟨trace, htrace, response, locator, hrenders, rfl⟩ := exists_trace h hpage
    exact faithful_of_ok hrenders (unbroken_of_yielded h hitems hpage) (houtcomes _ htrace)
  · intro hfaithful
    have htraces : traces = pages.map fun page => ⟨page.csvRows, .ok ()⟩ := by
      rw [foldr_of_faithful h hfaithful]
      exact List.map_congr_left fun page _ => yieldAll_uncast page.csvRows 0
    have hoks : ∀ trace ∈ traces, trace.outcome = .ok () := by
      intro trace htrace
      rw [htraces] at htrace
      obtain ⟨page, -, rfl⟩ := List.mem_map.mp htrace
      rfl
    rw [foldr_of_ok hoks, htraces, List.flatMap_map]

/-- Whatever the table, its pages and their rendering: the results end, and are the rows of the
table with their values, before these are cast, exactly if every page is faithful. Then they are
cast one after another. -/
theorem salesforce_results (table : Table python endpoint) (pages : List (Page table))
    (server : Option String → Response) (h : Served server ⟨none, []⟩ pages) :
    (∃ results, salesforceResults python endpoint uncast server pages.length = some results ∧
      (results = ⟨pages.flatMap Page.csvRows, .ok ()⟩ ↔ ∀ page ∈ pages, page.Faithful)) ∧
    ((∀ page ∈ pages, page.Faithful) →
      ∀ (α : Type) (normalize : CsvRow → ℕ → Except ResultsError α),
        salesforceResults python endpoint normalize server pages.length =
          some ((pages.map fun page => yieldAll (fun row : CsvRow × ℕ => normalize row.1 row.2)
            page.csvRows.zipIdx).foldr Trace.andThen .nil)) := by
  constructor
  · obtain ⟨traces, hloop, hreads⟩ := loop_served uncast h
    exact ⟨_, hloop, foldr_reads_iff hreads⟩
  · intro hfaithful α normalize
    obtain ⟨traces, hloop, hreads⟩ := loop_served normalize h
    rw [foldr_of_faithful hreads hfaithful] at hloop
    exact hloop

end Results

section Example

def noteTexts : PythonTexts where
  repr text := "'" ++ text ++ "'"
  int text := if text = "1" then some 1 else none

theorem note_valid : isFieldName "Note" = true := by decide +kernel

def noteEndpoint : Endpoint := ⟨"notes", [⟨"Note", false, note_valid⟩], "Sforce-Locator", "null"⟩

theorem notes_declared : validateCsvFields noteTexts noteEndpoint ["Note"] = .ok () := rfl

def notes : Table noteTexts noteEndpoint := ⟨["Note"], notes_declared⟩

def noteHeader : Cell := ⟨"Note".toList, false, .inr (by decide +kernel)⟩

/-- A page of one note in double quotes. -/
def notePage (note : String) : Page notes where
  header := [noteHeader]
  header_names := rfl
  rows := [[⟨note.toList, true, .inl rfl⟩]]
  rectangular := by simp [notes]
  terminated := true

def noteServer (note : String) (_ : Option String) : Response :=
  ⟨(notePage note).text, some "1", some "null"⟩

theorem notes_served (note : String) : Served (noteServer note) ⟨none, []⟩ [notePage note] :=
  .last ⟨none, []⟩ (notePage note) ⟨rfl, ⟨"1", rfl, rfl⟩, rfl⟩

/-- A note with a comma and a double quote. -/
theorem salesforce_results_note : ∃ results,
    salesforceResults noteTexts noteEndpoint uncast (noteServer "a,\"b") 1 = some results ∧
      (results = ⟨[[("Note", "a,\"b")]], .ok ()⟩ ↔
        ∀ page ∈ [notePage "a,\"b"], page.Faithful) :=
  (salesforce_results notes [notePage "a,\"b"] (noteServer "a,\"b") (notes_served _)).1

/-- A note of two lines is yielded as one line, and no error is raised. -/
theorem note_loses_line_break :
    Served (noteServer "a\nb") ⟨none, []⟩ [notePage "a\nb"] ∧
      [notePage "a\nb"].flatMap Page.csvRows = [[("Note", "a\nb")]] ∧
      salesforceResults noteTexts noteEndpoint uncast (noteServer "a\nb") 1 =
        some ⟨[[("Note", "ab")]], .ok ()⟩ := by
  refine ⟨notes_served _, ?_, ?_⟩
  · decide +kernel
  · rfl

end Example

end Dander.Salesforce
