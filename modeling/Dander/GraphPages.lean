import Dander.GraphStore
import Mathlib.Data.List.Sort
import Mathlib.Data.String.Basic

/-!
# Pages of graphs

`list` walks the graphs of a project in the order of their identifiers, one page a call. The
store in memory sorts by code points; the order is a parameter here, since a database sorts by
the collation it was created with.
-/
namespace Dander.GraphStore

open Schedule (jsonObject jsonString)

section Collations

/-- A total order of texts. -/
structure Collation where
  le : String → String → Prop
  [decidable : DecidableRel le]
  [total : Std.Total le]
  [trans : IsTrans String le]
  [antisymm : Std.Antisymm le]

attribute [instance] Collation.decidable Collation.total Collation.trans Collation.antisymm

/-- Texts compared by the weights of their characters. -/
def Collation.byWeight (weight : String → String) (h : Function.Injective weight) :
    Collation where
  le a b := weight a ≤ weight b
  decidable a b := inferInstanceAs (Decidable (weight a ≤ weight b))
  total := ⟨fun a b => le_total (weight a) (weight b)⟩
  trans := ⟨fun _ _ _ => le_trans⟩
  antisymm := ⟨fun _ _ hab hba => h (le_antisymm hab hba)⟩

/-- The order of code points, in which the store in memory sorts. -/
def Collation.codePoint : Collation := .byWeight id Function.injective_id

variable {α : Type} {le : α → α → Prop} [DecidableRel le]

/-- `bisect_right`: where an item goes in a sorted list, after the items equal to it. -/
def bisectRight (sorted : List α) (item : α) (le : α → α → Prop) [DecidableRel le] : ℕ :=
  (sorted.takeWhile (fun other => le other item)).length

theorem drop_bisectRight [IsTrans α le] {sorted : List α} (h : sorted.Pairwise le) (item : α) :
    sorted.drop (bisectRight sorted item le) = sorted.filter (fun other => ¬ le other item) := by
  induction sorted with
  | nil => rfl
  | cons first rest ih =>
    rw [List.pairwise_cons] at h
    have hrest := ih h.2
    unfold bisectRight at hrest ⊢
    by_cases hfirst : le first item
    · simp only [List.takeWhile_cons, hfirst, decide_true, if_true, List.length_cons,
        List.drop_succ_cons, hrest, not_true, decide_false, Bool.false_eq_true,
        List.filter_cons_of_neg, not_false_eq_true]
    · have hall : ∀ other ∈ first :: rest, ¬ le other item := by
        intro other hother hle
        rcases List.mem_cons.mp hother with rfl | hmem
        · exact hfirst hle
        · exact hfirst (IsTrans.trans _ _ _ (h.1 other hmem) hle)
      have hkeep : (first :: rest).filter (fun other => ¬ le other item) = first :: rest := by
        rw [List.filter_eq_self]
        intro other hother
        simpa using hall other hother
      rw [hkeep]
      simp [hfirst]

/-- Where a page starts: after the item its cursor names, or with the first. -/
def pageStart (sorted : List α) (after : Option α) (le : α → α → Prop) [DecidableRel le] : ℕ :=
  match after with
  | some item => bisectRight sorted item le
  | none => 0

/-- What a page that starts after an item may hold. -/
def isAfter (le : α → α → Prop) [DecidableRel le] (after : Option α) (item : α) : Bool :=
  after.all (fun earlier => decide (¬ le item earlier))

theorem drop_pageStart [IsTrans α le] {sorted : List α} (h : sorted.Pairwise le)
    (after : Option α) :
    sorted.drop (pageStart sorted after le) = sorted.filter (isAfter le after) := by
  cases after with
  | none =>
    have hall : sorted.filter (isAfter le none) = sorted := List.filter_true sorted
    rw [hall]
    rfl
  | some item => exact drop_bisectRight h item

theorem pageStart_le (le : α → α → Prop) [DecidableRel le] (sorted : List α) (after : Option α) :
    pageStart sorted after le ≤ sorted.length := by
  cases after with
  | none => exact Nat.zero_le _
  | some item => exact (List.takeWhile_sublist _).length_le

end Collations

section Cursors

structure GraphSummary where
  project : String
  graph : String
  revision : String
  contentSha256 : String
  createdAt : ℤ
  updatedAt : ℤ
  deriving Repr, DecidableEq

def GraphRecord.summary {Document : Type} (record : GraphRecord Document) : GraphSummary where
  project := record.project
  graph := record.graph
  revision := record.revision
  contentSha256 := record.contentSha256
  createdAt := record.createdAt
  updatedAt := record.updatedAt

structure GraphPage where
  items : List GraphSummary
  nextCursor : Option String
  deriving Repr, DecidableEq

structure CursorPayload where
  after : String
  project : String
  version : ℤ
  deriving Repr, DecidableEq

/-- What cursors take from the platform: the base64 encoding of a text, and what base64 and
JSON decoding make of a cursor, if that is an object with the three fields of a payload. -/
structure CursorCodec where
  urlsafeB64encode : String → String
  loads : String → Option CursorPayload

variable (codec : CursorCodec)

def encodeCursor (project after : String) : String :=
  let payload := jsonObject [("after", jsonString after), ("project", jsonString project),
    ("version", "1")]
  String.ofList ((codec.urlsafeB64encode payload).toList.reverse.dropWhile (· = '=')).reverse

def cursorInvalid : GraphStoreError := ⟨.identifier, "The graph page cursor is invalid."⟩

def decodeCursor (project : String) (cursor : Option String) :
    Except GraphStoreError (Option String) :=
  match cursor with
  | none => .ok none
  | some text => do
    if text = "" ∨ 512 < text.toList.length then throw cursorInvalid
    match codec.loads text with
    | none => throw cursorInvalid
    | some payload =>
      if payload.project ≠ project ∨ payload.version ≠ 1 then throw cursorInvalid
      if isPortableId payload.after then return some payload.after else throw cursorInvalid

def validatedPageSize (limit : ℤ) : Except GraphStoreError ℕ :=
  if 1 ≤ limit ∧ limit ≤ 100 then .ok limit.toNat
  else .error ⟨.identifier, "The graph page size must be between 1 and 100."⟩

/-- The checks of `list` before a store looks at its state: the page size, and the identifier
to start after. -/
def checkedList (project : String) (cursor : Option String) (limit : ℤ) :
    Except GraphStoreError (ℕ × Option String) := do
  validatedIdentifier project "project"
  let size ← validatedPageSize limit
  let after ← decodeCursor codec project cursor
  return (size, after)

end Cursors

section InMemoryPages

variable {Document : Type}

inductive Request (Document : Type) where
  | call (call : Call Document)
  | list (project : String) (cursor : Option String) (limit : ℤ)
  deriving DecidableEq

inductive Reply (Document : Type) where
  | outcome (outcome : Outcome Document)
  | page (page : GraphPage)
  deriving DecidableEq

def Call.key : Call Document → String × String
  | .get project graph => (project, graph)
  | .create project graph _ _ => (project, graph)
  | .put project graph _ _ => (project, graph)
  | .delete project graph _ _ => (project, graph)

def Call.creates : Call Document → Bool
  | .create .. => true
  | .get .. | .put .. | .delete .. => false

/-- What a call does to the records: nothing, a new record of the graph that it names, which only
a creation adds, or its removal. -/
theorem InMemoryGraphStore.records_perform (contract : Contract Document) (draw : Draw)
    (store : InMemoryGraphStore Document) (call : Call Document) :
    (store.perform contract draw call).2.records = store.records ∨
      (∃ canonical revision createdAt updatedAt, isPortableId call.key.1 = true ∧
        isPortableId call.key.2 = true ∧
        (call.creates = false → (store.records call.key).isSome = true) ∧
        (store.perform contract draw call).2.records = Function.update store.records call.key
          (some (newRecord call.key.1 call.key.2 canonical revision createdAt updatedAt))) ∨
      (store.perform contract draw call).2.records =
        Function.update store.records call.key none := by
  have hportable : ∀ {value label : String}, validatedIdentifier value label = .ok () →
      isPortableId value = true := by
    intro value label h
    unfold validatedIdentifier at h
    split at h
    · assumption
    · cases h
  have hkeys : ∀ {project graph : String}, validatedGraphKey project graph = .ok () →
      isPortableId project = true ∧ isPortableId graph = true := by
    intro project graph h
    obtain ⟨⟨⟩, hproject, hgraph⟩ := Execution.bind_eq_ok h
    exact ⟨hportable hproject, hportable hgraph⟩
  cases call with
  | get project graph =>
    left
    simp only [perform]
    cases store.get project graph <;> rfl
  | create project graph document idempotencyKey =>
    simp only [perform]
    cases hcreate : store.create contract draw project graph document idempotencyKey with
    | error e => exact .inl rfl
    | ok result =>
      obtain ⟨canonical, hchecked, hrest⟩ := Execution.bind_eq_ok hcreate
      cases hold : store.idempotency ⟨project, .create, idempotencyKey⟩ with
      | some saved =>
        simp only [hold] at hrest
        obtain ⟨record, -, hrest⟩ := Execution.bind_eq_ok hrest
        cases hrest
        exact .inl rfl
      | none =>
        simp only [hold] at hrest
        obtain ⟨-, hrest⟩ := Execution.guard_eq_ok hrest
        obtain ⟨⟨⟩, -, hrest⟩ := Execution.bind_eq_ok hrest
        cases hrest
        obtain ⟨⟨⟩, hvalid, -⟩ := Execution.bind_eq_ok hchecked
        obtain ⟨hproject, hgraph⟩ := hkeys hvalid
        exact .inr (.inl ⟨canonical, _, _, _, hproject, hgraph, by rintro ⟨⟩, rfl⟩)
  | put project graph document revision =>
    simp only [perform]
    cases hput : store.put contract draw project graph document revision with
    | error e => exact .inl rfl
    | ok result =>
      obtain ⟨canonical, hchecked, hrest⟩ := Execution.bind_eq_ok hput
      cases hrecord : store.records (project, graph) with
      | none =>
        rw [hrecord] at hrest
        cases hrest
      | some current =>
        simp only [hrecord] at hrest
        obtain ⟨-, hrest⟩ := Execution.guard_eq_ok hrest
        obtain ⟨⟨⟩, -, hrest⟩ := Execution.bind_eq_ok hrest
        cases hrest
        obtain ⟨⟨⟩, hvalid, -⟩ := Execution.bind_eq_ok hchecked
        obtain ⟨hproject, hgraph⟩ := hkeys hvalid
        refine .inr (.inl ⟨canonical, _, _, _, hproject, hgraph, ?_, rfl⟩)
        intro _
        rw [show (Call.put project graph document revision).key = (project, graph) from rfl, hrecord]
        rfl
  | delete project graph revision idempotencyKey =>
    simp only [perform]
    cases hdelete : store.delete contract draw project graph revision idempotencyKey with
    | error e => exact .inl rfl
    | ok result =>
      obtain ⟨⟨⟩, -, hrest⟩ := Execution.bind_eq_ok hdelete
      cases hold : store.idempotency ⟨project, .delete, idempotencyKey⟩ with
      | some saved =>
        simp only [hold] at hrest
        obtain ⟨receipt, -, hrest⟩ := Execution.bind_eq_ok hrest
        cases hrest
        exact .inl rfl
      | none =>
        simp only [hold] at hrest
        cases hrecord : store.records (project, graph) with
        | none =>
          rw [hrecord] at hrest
          cases hrest
        | some current =>
          simp only [hrecord] at hrest
          obtain ⟨-, hrest⟩ := Execution.guard_eq_ok hrest
          cases hrest
          exact .inr (.inr rfl)

/-- Calls change the record of the graph they name and no other. -/
theorem InMemoryGraphStore.perform_records_of_ne (contract : Contract Document) (draw : Draw)
    (store : InMemoryGraphStore Document) (call : Call Document) {key : String × String}
    (hne : key ≠ call.key) :
    (store.perform contract draw call).2.records key = store.records key := by
  rcases store.records_perform contract draw call with
    hsame | ⟨canonical, revision, createdAt, updatedAt, -, -, -, hnew⟩ | hremoved
  · rw [hsame]
  · rw [hnew, Function.update_of_ne hne]
  · rw [hremoved, Function.update_of_ne hne]

/-- The store in memory with the keys of its records in the order of the dictionary. -/
structure InMemoryGraphs (Document : Type) extends InMemoryGraphStore Document where
  keys : List (String × String)
  nodup : keys.Nodup
  mem_keys : ∀ key, key ∈ keys ↔ (records key).isSome

namespace InMemoryGraphs

def empty : InMemoryGraphs Document where
  toInMemoryGraphStore := .empty
  keys := []
  nodup := List.nodup_nil
  mem_keys := by simp [InMemoryGraphStore.empty]

variable (contract : Contract Document) (codec : CursorCodec) (collation : Collation)
  (draw : InMemoryGraphStore.Draw) (graphs : InMemoryGraphs Document)

/-- The keys after an assignment to one key, or its deletion. -/
def keysAfter (keys : List (String × String)) (key : String × String) (present : Bool) :
    List (String × String) :=
  if present then (if key ∈ keys then keys else keys ++ [key]) else keys.erase key

theorem nodup_keysAfter {keys : List (String × String)} (h : keys.Nodup) (key : String × String)
    (present : Bool) : (keysAfter keys key present).Nodup := by
  unfold keysAfter
  split
  · split
    · exact h
    next hnew =>
      rw [List.nodup_append_comm, List.singleton_append, List.nodup_cons]
      exact ⟨hnew, h⟩
  · exact h.erase key

theorem mem_keysAfter {keys : List (String × String)} (h : keys.Nodup)
    {key other : String × String} {present : Bool} :
    other ∈ keysAfter keys key present ↔
      (other = key ∧ present = true) ∨ (other ≠ key ∧ other ∈ keys) := by
  unfold keysAfter
  by_cases hother : other = key
  · subst hother
    cases present with
    | true =>
      by_cases hmem : other ∈ keys
      · simp [hmem]
      · simp [hmem]
    | false => simp [h.mem_erase_iff]
  · cases present with
    | true =>
      by_cases hmem : key ∈ keys
      · simp [hmem, hother]
      · simp [hmem, hother]
    | false => simp [hother, h.mem_erase_iff]

/-- One call, with the keys its effect leaves. -/
def performCall (call : Call Document) :
    Except GraphStoreError (Outcome Document) × InMemoryGraphs Document :=
  let result := graphs.toInMemoryGraphStore.perform contract draw call
  (result.1,
    { toInMemoryGraphStore := result.2
      keys := keysAfter graphs.keys call.key (result.2.records call.key).isSome
      nodup := nodup_keysAfter graphs.nodup _ _
      mem_keys := by
        intro key
        rw [mem_keysAfter graphs.nodup]
        by_cases hkey : key = call.key
        · simp [hkey]
        · rw [InMemoryGraphStore.perform_records_of_ne contract draw _ call hkey]
          simp [hkey, graphs.mem_keys] })

/-- The identifiers of a project's graphs, sorted. -/
def pageIds (project : String) : List String :=
  ((graphs.keys.filter (fun key => key.1 = project)).map Prod.snd).insertionSort collation.le

/-- The page of at most `size` graphs from a place on. -/
def page (project : String) (start size : ℕ) : GraphPage :=
  let graphIds := graphs.pageIds collation project
  let selected := (graphIds.drop start).take size
  { items := selected.filterMap fun graph =>
      (graphs.records (project, graph)).map GraphRecord.summary
    nextCursor := selected.getLast?.bind fun last =>
      if start + selected.length < graphIds.length then some (encodeCursor codec project last)
      else none }

def list (project : String) (cursor : Option String) (limit : ℤ) :
    Except GraphStoreError GraphPage := do
  let (size, after) ← checkedList codec project cursor limit
  let start := pageStart (graphs.pageIds collation project) after collation.le
  return graphs.page codec collation project start size

def perform : Request Document → Except GraphStoreError (Reply Document) × InMemoryGraphs Document
  | .call call =>
    let result := graphs.performCall contract draw call
    (result.1.map Reply.outcome, result.2)
  | .list project cursor limit =>
    ((graphs.list codec collation project cursor limit).map Reply.page, graphs)

end InMemoryGraphs

end InMemoryPages

end Dander.GraphStore
