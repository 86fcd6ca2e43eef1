import Dander.Reconciliation
import Dander.RunStoreAgreement

/-!
# The pending runs of PostgreSQL

The recovery query of PostgreSQL reads the runs that need reconciliation in the order of their
names. Its cursor is the last name of a page, and has passed every name up to it.
-/
namespace Dander.Reconciliation

open Execution
open GraphStore (Collation)
open Orchestration (RunStoreError runNeedsReconciliation)
open PostgresqlRunStore (Database RunRow StoredRun pageRows storedRunFromRow decodeCursor
  encodeCursor)
open RunStore (Base64 checkedPageSize)
open RunStoreAgreement (Flagged)

section Pages

variable {base64 : Base64} {collation : Collation} {db : Database} {cursor after : Option String}
  {limit : ℤ} {size : ℕ}

theorem runId_of_storedRunFromRow {row : RunRow} {stored : StoredRun}
    (h : storedRunFromRow row none none = .ok stored) : stored.record.runId = row.runId := by
  unfold storedRunFromRow at h
  obtain ⟨⟨⟩, -, h⟩ := bind_eq_ok h
  obtain ⟨⟨⟩, -, h⟩ := bind_eq_ok h
  obtain ⟨⟨⟩, -, h⟩ := bind_eq_ok h
  obtain ⟨⟨⟩, -, h⟩ := bind_eq_ok h
  obtain ⟨⟨⟩, -, h⟩ := bind_eq_ok h
  obtain ⟨-, h⟩ := guard_eq_ok h
  obtain ⟨-, h⟩ := guard_eq_ok h
  obtain ⟨hidentity, h⟩ := guard_eq_ok h
  obtain ⟨⟨⟩, -, h⟩ := bind_eq_ok h
  obtain rfl := Except.ok.inj h
  by_contra hne
  exact hidentity (.inl hne)

theorem runIds_of_mapM {rows : List RunRow} {items : List StoredRun}
    (h : rows.mapM (fun row => storedRunFromRow row none none) = .ok items) :
    items.map (fun stored => stored.record.runId) = rows.map RunRow.runId :=
  map_of_mapM (fun _ _ hstored => runId_of_storedRunFromRow hstored) h

theorem encodeCursor_eq_ok {runId text : String} (h : encodeCursor base64 runId = .ok text) :
    isOpaqueId runId = true ∧ text = base64.encode runId := by
  unfold encodeCursor at h
  obtain ⟨⟨⟩, hid, h⟩ := bind_eq_ok h
  unfold PostgresqlRunStore.checkedId at hid
  split at hid
  next hident => exact ⟨hident, (Except.ok.inj h).symm⟩
  · cases hid

theorem decodeCursor_eq_ok (h : decodeCursor base64 cursor = .ok after) :
    after = cursor.bind base64.decode := by
  cases cursor with
  | none => exact (Except.ok.inj h).symm
  | some text =>
    unfold decodeCursor at h
    obtain ⟨-, h⟩ := guard_eq_ok h
    rw [Option.bind_some]
    cases hdecode : base64.decode text with
    | none =>
      rw [hdecode] at h
      cases h
    | some runId =>
      rw [hdecode] at h
      obtain ⟨expected, -, h⟩ := bind_eq_ok h
      obtain ⟨-, h⟩ := guard_eq_ok h
      exact (Except.ok.inj h).symm

variable {pendingOnly : Bool}

/-- A page has the first rows after its cursor, and a cursor for its last one if there are more. -/
theorem list_eq_ok {page : PostgresqlRunStore.StoredRunPage}
    (h : PostgresqlRunStore.list base64 collation db pendingOnly cursor limit = .ok page) :
    ∃ size, 1 ≤ size ∧
      page.items.map (fun stored => stored.record.runId) =
        ((pageRows collation db pendingOnly (cursor.bind base64.decode)).take size).map
          RunRow.runId ∧
      ((size < (pageRows collation db pendingOnly (cursor.bind base64.decode)).length ∧
          ∃ last, page.items.getLast? = some last ∧ isOpaqueId last.record.runId = true ∧
            page.nextCursor = some (base64.encode last.record.runId)) ∨
        ((pageRows collation db pendingOnly (cursor.bind base64.decode)).length ≤ size ∧
          page.nextCursor = none)) := by
  unfold PostgresqlRunStore.list at h
  obtain ⟨size, hsize, h⟩ := bind_eq_ok h
  obtain ⟨after, hafter, h⟩ := bind_eq_ok h
  obtain rfl := decodeCursor_eq_ok hafter
  obtain ⟨items, hitems, h⟩ := bind_eq_ok h
  generalize pageRows collation db pendingOnly (cursor.bind base64.decode) = rows at *
  have hpositive : 1 ≤ size := by
    unfold checkedPageSize at hsize
    split at hsize
    · obtain rfl := Except.ok.inj hsize
      omega
    · cases hsize
  have htake : (rows.take (size + 1)).take size = rows.take size := by
    rw [List.take_take]
    congr 1
    omega
  have hmore : size < (rows.take (size + 1)).length ↔ size < rows.length := by
    rw [List.length_take]
    omega
  rw [htake] at hitems
  have hids := runIds_of_mapM hitems
  have hlength := congrArg List.length hids
  rw [List.length_map, List.length_map, List.length_take] at hlength
  refine ⟨size, hpositive, ?_⟩
  cases hlast : items.getLast? with
  | none =>
    simp only [hlast] at h
    obtain rfl := Except.ok.inj h
    refine ⟨hids, .inr ⟨?_, rfl⟩⟩
    rw [List.getLast?_eq_none_iff] at hlast
    subst hlast
    rw [List.length_nil] at hlength
    omega
  | some last =>
    simp only [hlast] at h
    by_cases hrows : size < (rows.take (size + 1)).length
    · rw [if_pos hrows] at h
      obtain ⟨nextCursor, hnext, h⟩ := bind_eq_ok h
      obtain rfl := Except.ok.inj h
      cases hencode : encodeCursor base64 last.record.runId with
      | error e =>
        rw [hencode] at hnext
        cases hnext
      | ok text =>
        rw [hencode] at hnext
        obtain rfl := Except.ok.inj hnext
        obtain ⟨hident, rfl⟩ := encodeCursor_eq_ok hencode
        exact ⟨hids, .inl ⟨hmore.mp hrows, last, hlast, hident, rfl⟩⟩
    · rw [if_neg hrows] at h
      obtain rfl := Except.ok.inj h
      refine ⟨hids, .inr ⟨?_, rfl⟩⟩
      rw [hmore] at hrows
      omega

end Pages

section Store

/-- A database whose pending column says of each row what its record says. -/
abbrev FlaggedDatabase := { db : Database // Flagged db }

variable (base64 : Base64) (collation : Collation)

/-- Some row of the run needs reconciliation. -/
def PendingRow (db : FlaggedDatabase) (run : String) : Prop :=
  ∃ row ∈ db.1.runs, row.runId = run ∧ runNeedsReconciliation row.recordBytes = true

/-- The run's name is up to the one the cursor encodes. -/
def PassedName (text run : String) : Prop :=
  ∃ last, base64.decode text = some last ∧ collation.le run last

variable {base64 collation}

theorem list_covers {db : FlaggedDatabase} {cursor : Option String} {limit : ℤ} {run : String}
    {page : PostgresqlRunStore.StoredRunPage}
    (hlist : PostgresqlRunStore.list base64 collation db.1 true cursor limit = .ok page)
    (hpending : PendingRow db run)
    (hcursor : ∀ text, cursor = some text → ¬ PassedName base64 collation text run) :
    (∃ stored ∈ page.items, stored.record.runId = run) ∨
      ∃ next, page.nextCursor = some next ∧ ¬ PassedName base64 collation next run := by
  obtain ⟨row, hrow, hrun, hneeds⟩ := hpending
  obtain ⟨size, hpositive, hids, hnext⟩ := list_eq_ok hlist
  have hlater : GraphStore.isAfter collation.le (cursor.bind base64.decode) row.runId = true := by
    cases hlast : cursor.bind base64.decode with
    | none => rfl
    | some last =>
      obtain ⟨text, htext, hdecode⟩ := Option.bind_eq_some_iff.mp hlast
      have hpassed := hcursor text htext
      simp only [GraphStore.isAfter, Option.all_some, decide_eq_true_eq]
      intro hle
      exact hpassed ⟨last, hdecode, hrun ▸ hle⟩
  have hmem : row ∈ pageRows collation db.1 true (cursor.bind base64.decode) := by
    unfold pageRows
    rw [List.mem_insertionSort, List.mem_filter]
    refine ⟨hrow, ?_⟩
    rw [Bool.and_eq_true]
    exact ⟨(db.2 row hrow).trans hneeds, hlater⟩
  have hsorted : (pageRows collation db.1 true (cursor.bind base64.decode)).Pairwise
      fun first second => collation.le first.runId second.runId :=
    List.pairwise_insertionSort _ _
  generalize pageRows collation db.1 true (cursor.bind base64.decode) = rows at *
  have hitem : ∀ other ∈ rows.take size, other.runId = run →
      ∃ stored ∈ page.items, stored.record.runId = run := by
    intro other hother heq
    have hname : other.runId ∈ page.items.map fun stored => stored.record.runId := by
      rw [hids]
      exact List.mem_map_of_mem hother
    obtain ⟨stored, hstored, hname⟩ := List.mem_map.mp hname
    exact ⟨stored, hstored, hname.trans heq⟩
  have hsplit := List.take_append_drop size rows
  rw [← hsplit, List.mem_append] at hmem
  rcases hmem with hfirst | hrest
  · exact .inl (hitem row hfirst hrun)
  · rcases hnext with ⟨hlarge, last, hlast, -, hnext⟩ | ⟨hsmall, -⟩
    · have hlastName : last.record.runId ∈ page.items.map fun stored => stored.record.runId :=
        List.mem_map_of_mem (List.mem_of_getLast? hlast)
      rw [hids] at hlastName
      obtain ⟨lastRow, hlastRow, hlastName⟩ := List.mem_map.mp hlastName
      rw [← hsplit, List.pairwise_append] at hsorted
      have hle := hsorted.2.2 lastRow hlastRow row hrest
      by_cases hsame : lastRow.runId = run
      · exact .inl (hitem lastRow hlastRow hsame)
      · refine .inr ⟨_, hnext, ?_⟩
        rintro ⟨name, hdecode, hpassed⟩
        rw [base64.decode_encode, Option.some.injEq] at hdecode
        subst hdecode
        rw [hlastName, hrun] at hle
        rw [hlastName] at hsame
        exact hsame (collation.antisymm.antisymm _ _ hle hpassed)
    · rw [List.drop_eq_nil_of_le hsmall] at hrest
      cases hrest

variable (base64 collation)

/-- The recovery query of PostgreSQL. -/
def postgresqlPending : PendingRunStore StoredRun FlaggedDatabase where
  runId stored := stored.record.runId
  pending := PendingRow
  passed := PassedName base64 collation
  listPending db cursor limit page :=
    PostgresqlRunStore.list base64 collation db.1 true cursor limit =
      .ok ⟨page.items, page.nextCursor⟩
  covers _ _ _ _ _ hlist hpending hcursor := list_covers hlist hpending hcursor

end Store

end Dander.Reconciliation
