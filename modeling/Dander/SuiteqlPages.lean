import Dander.Generators
import Dander.Identifiers
import Dander.PythonValues

/-!
# SuiteQL pages

A NetSuite query is read in pages. A page says how many items it has, where it starts, how many
results there are and whether more follow; the source checks all of this before it yields a row.
-/
namespace Dander.Suiteql

open Generator Python

section Source

abbrev Record := List (String × Value)

structure EnterpriseSourceError where
  message : String
  deriving DecidableEq

inductive Pagination where
  | offset (pageSize : ℕ)
  /-- Any other strategy. -/
  | other
  deriving DecidableEq

structure Endpoint where
  name : String
  pagination : Pagination
  requestBody : Record
  fieldTypes : List (String × String)

/-- The decoded response to a request for the page at an offset, or the error of the request. The
requests are numbered. -/
abbrev Server := ℕ → ℕ → Except EnterpriseSourceError Value

def recordOf : Value → Option Record
  | .mapping entries => some entries
  | _ => none

/-- The items of a page, if all of them are mappings. -/
def itemRecords : Option Value → Option (List Record)
  | some (.list items) => items.mapM recordOf
  | _ => none

def intOf : Option Value → Option ℤ
  | some (.scalar (.int value)) => some value
  | _ => none

def boolOf : Option Value → Option Bool
  | some (.scalar (.bool value)) => some value
  | _ => none

def suiteqlPage (payload : Value) (endpoint : Endpoint) (expectedOffset : ℕ) :
    Except EnterpriseSourceError (List Record × Bool) :=
  match payload with
  | .mapping entries =>
    match itemRecords (entries.lookup "items") with
    | none => .error ⟨s!"Endpoint '{endpoint.name}' items must be mapping records"⟩
    | some items =>
      match intOf (entries.lookup "count"), intOf (entries.lookup "offset"),
        intOf (entries.lookup "totalResults"), boolOf (entries.lookup "hasMore") with
      | some count, some offset, some totalResults, some hasMore =>
        if count ≠ items.length ∨ offset ≠ expectedOffset ∨ totalResults < offset + count ∨
            hasMore ≠ decide (offset + count < totalResults) then
          .error ⟨s!"Endpoint '{endpoint.name}' response has inconsistent SuiteQL page metadata"⟩
        else .ok (items, hasMore)
      | _, _, _, _ =>
        .error ⟨s!"Endpoint '{endpoint.name}' response has invalid SuiteQL page metadata"⟩
  | _ => .error ⟨s!"Endpoint '{endpoint.name}' response must be an object"⟩

/-- `cast[field] = value` for a field that the row has. -/
def setField (row : Record) (field : String) (value : Value) : Record :=
  row.map fun entry => if entry.1 = field then (field, value) else entry

/-- Casts the declared fields of a row that are not null. `castValue` casts a value to a type. -/
def castRow (castValue : String → Value → Option Value) (name : String) :
    List (String × String) → Record → Except EnterpriseSourceError Record
  | [], row => .ok row
  | (field, dataType) :: rest, row =>
    match row.lookup field with
    | none | some (.scalar .none) => castRow castValue name rest row
    | some value =>
      match castValue dataType value with
      | some cast => castRow castValue name rest (setField row field cast)
      | none => .error ⟨s!"Endpoint '{name}' field '{field}' cannot be cast to {dataType}"⟩

/-- A row as it is yielded: without the links that NetSuite adds to every item. -/
def yieldedRow (castValue : String → Value → Option Value) (endpoint : Endpoint) (row : Record) :
    Except EnterpriseSourceError Record :=
  castRow castValue endpoint.name endpoint.fieldTypes (row.filter fun entry => entry.1 ≠ "links")

/-- A request and what follows until the next one. The state is the number of the request and the
offset. -/
def round (castValue : String → Value → Option Value) (endpoint : Endpoint) (server : Server)
    (state : ℕ × ℕ) : Trace EnterpriseSourceError Record × Option (ℕ × ℕ) :=
  match server state.1 state.2 with
  | .error error => (.raised error, none)
  | .ok payload =>
    match suiteqlPage payload endpoint state.2 with
    | .error error => (.raised error, none)
    | .ok (rows, hasMore) =>
      let page := yieldAll (yieldedRow castValue endpoint) rows
      if hasMore = false then (page, none)
      else if rows = [] then
        (page.andThen (.raised
          ⟨s!"Endpoint '{endpoint.name}' returned hasMore=true with an empty page"⟩), none)
      else (page, some (state.1 + 1, state.2 + rows.length))

def declaredQuery (endpoint : Endpoint) : Option String :=
  match endpoint.requestBody.lookup "q" with
  | some (.scalar (.str query)) =>
    if query.toList.any fun c => !isSpace c then some query else none
  | _ => none

/-- The rows of an endpoint, or none if the source has not ended after so many requests. -/
def extract (castValue : String → Value → Option Value) (endpoint : Endpoint) (server : Server)
    (requests : ℕ) : Option (Trace EnterpriseSourceError Record) :=
  match endpoint.pagination, declaredQuery endpoint with
  | .other, _ => some (.raised
      ⟨s!"NetSuite SuiteQL endpoint '{endpoint.name}' requires offset pagination"⟩)
  | .offset _, none => some (.raised
      ⟨s!"NetSuite SuiteQL endpoint '{endpoint.name}' requires request_body.q"⟩)
  | .offset _, some _ => loop (round castValue endpoint server) requests (0, 0)

end Source

section Pages

variable {castValue : String → Value → Option Value} {endpoint : Endpoint} {server : Server}
  {results items : List Record} {entries : Record} {payload : Value} {offset : ℕ} {hasMore : Bool}

/-- The metadata of a page: the number of its items, its offset, the total and whether more
follow. -/
structure Page (entries : Record) (items : List Record) (offset totalResults : ℤ) (hasMore : Bool) :
    Prop where
  listed : itemRecords (entries.lookup "items") = some items
  counted : intOf (entries.lookup "count") = some (items.length : ℤ)
  placed : intOf (entries.lookup "offset") = some offset
  total : intOf (entries.lookup "totalResults") = some totalResults
  more : boolOf (entries.lookup "hasMore") = some hasMore

/-- A page that agrees with the requested offset, with its items and with its totals. -/
def Consistent (payload : Value) (offset : ℕ) (items : List Record) (hasMore : Bool) : Prop :=
  ∃ entries totalResults, payload = .mapping entries ∧
    Page entries items offset totalResults hasMore ∧
    (offset + items.length : ℤ) ≤ totalResults ∧
    hasMore = decide ((offset + items.length : ℤ) < totalResults)

/-- The checks accept just the pages that agree. -/
theorem suiteqlPage_eq_ok : suiteqlPage payload endpoint offset = .ok (items, hasMore) ↔
    Consistent payload offset items hasMore := by
  constructor
  · intro h
    unfold suiteqlPage at h
    split at h
    next entries =>
      split at h
      · cases h
      next items' hitems =>
        split at h
        next count offset' totalResults hasMore' hcount hoffset htotal hmore =>
          split at h
          · cases h
          next hagree =>
            push Not at hagree
            obtain ⟨rfl, rfl, hle, hmoreEq⟩ := hagree
            cases h
            exact ⟨entries, totalResults, rfl, ⟨hitems, hcount, hoffset, htotal, hmore⟩, by omega,
              hmoreEq⟩
        · cases h
    · cases h
  · rintro ⟨entries, totalResults, rfl, hpage, hle, hmoreEq⟩
    simp only [suiteqlPage, hpage.listed, hpage.counted, hpage.placed, hpage.total, hpage.more]
    rw [if_neg]
    push Not
    exact ⟨rfl, rfl, by omega, hmoreEq⟩

/-- A server whose pages are slices of one list, of whatever positive sizes. -/
def Slices (server : Server) (results : List Record) : Prop :=
  ∀ request offset, offset ≤ results.length → ∃ entries size, 0 < size ∧
    server request offset = .ok (.mapping entries) ∧
    Page entries ((results.drop offset).take size) offset results.length
      (decide (offset + size < results.length))

theorem Slices.round_eq (h : Slices server results) {request : ℕ}
    (hoffset : offset ≤ results.length) :
    Advances (round castValue endpoint server)
      (fun state => yieldAll (yieldedRow castValue endpoint) (results.drop state.2))
      (fun state => results.length - state.2) (fun state => state.2 ≤ results.length)
      (request, offset) := by
  obtain ⟨entries, size, hsize, hserver, hpage⟩ := h request offset hoffset
  have hlength : ((results.drop offset).take size).length =
      min size (results.length - offset) := by
    rw [List.length_take, List.length_drop]
  have hmore : decide (offset + size < results.length) =
      decide ((offset + ((results.drop offset).take size).length : ℤ) < results.length) := by
    rw [hlength, decide_eq_decide]
    omega
  have hok : suiteqlPage (.mapping entries) endpoint offset =
      .ok ((results.drop offset).take size, decide (offset + size < results.length)) := by
    refine suiteqlPage_eq_ok.mpr ⟨entries, results.length, rfl, hpage, ?_, hmore⟩
    rw [hlength]
    omega
  by_cases hlast : offset + size < results.length
  · refine .inr ⟨yieldAll (yieldedRow castValue endpoint) ((results.drop offset).take size),
      (request + 1, offset + size), ?_, ?_, ?_, ?_⟩
    · have hfull : min size (results.length - offset) = size := by omega
      have hnonempty : (results.drop offset).take size ≠ [] := by
        intro hempty
        rw [hempty, List.length_nil] at hlength
        omega
      simp only [round, hserver, hok, decide_eq_true hlast, if_neg hnonempty, hlength, hfull]
      rfl
    · show offset + size ≤ results.length
      omega
    · show results.length - (offset + size) < results.length - offset
      omega
    · show yieldAll _ (results.drop offset) = Trace.andThen _ (yieldAll _ (results.drop _))
      rw [← yieldAll_append, ← List.drop_drop, List.take_append_drop]
  · refine .inl ?_
    have hall : (results.drop offset).take size = results.drop offset := by
      apply List.take_of_length_le
      rw [List.length_drop]
      omega
    simp only [round, hserver, hok, decide_eq_false hlast, if_true, hall]

/-- The source yields the list of such a server once and in order, each row without its links and
with its casts, and ends. A page that does not agree is refused before any of its rows. -/
theorem suiteql_pages (castValue : String → Value → Option Value) (endpoint : Endpoint)
    (server : Server) :
    (∀ results pageSize query, endpoint.pagination = .offset pageSize →
      declaredQuery endpoint = some query → Slices server results →
      ∀ requests, results.length < requests → extract castValue endpoint server requests =
        some (yieldAll (yieldedRow castValue endpoint) results)) ∧
    ∀ request offset payload, server request offset = .ok payload →
      (∀ items hasMore, ¬ Consistent payload offset items hasMore) →
      ∃ error, ∀ requests, loop (round castValue endpoint server) (requests + 1) (request, offset) =
        some (.raised error) := by
  constructor
  · intro results pageSize query hpagination hquery hslices requests hrequests
    rw [extract, hpagination, hquery]
    exact @loop_of_advances _ _ _ (round castValue endpoint server)
      (fun state => yieldAll (yieldedRow castValue endpoint) (results.drop state.2))
      (fun state => results.length - state.2) (fun state => state.2 ≤ results.length)
      (fun _ hstate => hslices.round_eq hstate) requests (0, 0) (Nat.zero_le _) hrequests
  · intro request offset payload hserver hinconsistent
    cases hpage : suiteqlPage payload endpoint offset with
    | error error =>
      refine ⟨error, fun requests => ?_⟩
      simp only [loop, round, hserver, hpage]
    | ok page =>
      exact absurd (suiteqlPage_eq_ok.mp hpage) (hinconsistent page.1 page.2)

def exampleEndpoint : Endpoint :=
  ⟨"orders", .offset 1000, [("q", .scalar (.str "SELECT id FROM orders ORDER BY id"))], []⟩

/-- An item as NetSuite sends it. -/
def exampleItem : Record := [("id", .scalar (.str "7")), ("links", .list [])]

/-- A server with one result. -/
def exampleServer : Server := fun _ offset =>
  .ok (.mapping [("items", .list (([exampleItem].drop offset).map .mapping)),
    ("count", .scalar (.int (([exampleItem].drop offset).length))),
    ("offset", .scalar (.int offset)), ("totalResults", .scalar (.int 1)),
    ("hasMore", .scalar (.bool false))])

theorem slices_exampleServer : Slices exampleServer [exampleItem] := by
  intro request offset hoffset
  refine ⟨_, 1, by omega, rfl, ?_⟩
  have hlast : decide (offset + 1 < [exampleItem].length) = false := by simp
  rw [hlast]
  obtain rfl | rfl : offset = 0 ∨ offset = 1 := by
    simp only [List.length_cons, List.length_nil] at hoffset
    omega
  · exact ⟨rfl, rfl, rfl, rfl, rfl⟩
  · exact ⟨rfl, rfl, rfl, rfl, rfl⟩

/-- The links of an item are not yielded. -/
theorem item_without_links : Slices exampleServer [exampleItem] ∧
    extract (fun _ value => some value) exampleEndpoint exampleServer 2 =
      some ⟨[[("id", .scalar (.str "7"))]], .ok ()⟩ ∧
    [[("id", Value.scalar (.str "7"))]] ≠ [exampleItem] := by
  refine ⟨slices_exampleServer, rfl, ?_⟩
  simp [exampleItem]

end Pages

end Dander.Suiteql
