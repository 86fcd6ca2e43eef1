import Dander.Base64Text
import Dander.PostgresqlPendingRuns
import Dander.RunListings

/-!
# Listing the runs of PostgreSQL

The rows of the runs table are listed in the order of their names, all of them or those that need
reconciliation. Rows come, change and are never removed, and each decodes to its record.
-/
namespace Dander.RunListings

open Execution
open GraphStore (Collation)
open KeysetPages (After IsPage isPage_take)
open Orchestration (RunRecord RunStoreError runNeedsReconciliation)
open PostgresqlRunStore (Database RunRow StoredRun StoreRequest pageRows rowOf savedRow hasRevision
  storedRunFromRow)
open Reconciliation (decodeCursor_eq_ok encodeCursor_eq_ok list_eq_ok runId_of_storedRunFromRow)
open RunStore (Base64 ResultCodec)
open RunStoreAgreement (Flagged runs_claimMutation runs_appendAttempt)

/-- Base64 as the cursors of the stores use it. -/
def cursorBase64 : Base64 where
  encode := Base64Text.encodeText
  decode := Base64Text.decodeText
  decode_encode := Base64Text.decodeText_encodeText

section Names

theorem ascii_of_isAlphanumeric {c : Char} (h : isAlphanumeric c = true) : c.toNat < 128 := by
  unfold isAlphanumeric isLowerOrDigit at h
  simp only [Bool.or_eq_true, Bool.and_eq_true, decide_eq_true_eq] at h
  omega

theorem ascii_of_isOpaqueId {text : String} (h : isOpaqueId text = true) :
    1 ≤ text.toList.length ∧ text.toList.length ≤ 128 ∧ ∀ c ∈ text.toList, c.toNat < 128 := by
  unfold isOpaqueId at h
  cases hchars : text.toList with
  | nil =>
    rw [hchars] at h
    cases h
  | cons first rest =>
    rw [hchars] at h
    simp only [Bool.and_eq_true, decide_eq_true_eq, List.all_eq_true, Bool.or_eq_true] at h
    obtain ⟨⟨hfirst, hlength⟩, hrest⟩ := h
    refine ⟨by simp, by rw [List.length_cons]; omega, ?_⟩
    intro c hc
    rcases List.mem_cons.mp hc with rfl | hc
    · exact ascii_of_isAlphanumeric hfirst
    · rcases hrest c hc with (((hword | rfl) | rfl) | rfl) | rfl
      · exact ascii_of_isAlphanumeric hword
      all_goals decide

end Names

section Rows

variable {base64 : Base64} {codec : ResultCodec} {collation : Collation} {token : String}
  {db : Database}

def Decodes (row : RunRow) : Prop := ∃ stored, storedRunFromRow row none none = .ok stored

/-- Checks of an address leave the rest to decode. -/
theorem decodes_of_addressed {row : RunRow} {runId : String} {stored : StoredRun}
    (h : storedRunFromRow row (some runId) none = .ok stored) : Decodes row := by
  refine ⟨stored, ?_⟩
  unfold storedRunFromRow at h ⊢
  obtain ⟨⟨⟩, hid, h⟩ := bind_eq_ok h
  obtain ⟨⟨⟩, henvironment, h⟩ := bind_eq_ok h
  obtain ⟨⟨⟩, hproject, h⟩ := bind_eq_ok h
  obtain ⟨⟨⟩, hkey, h⟩ := bind_eq_ok h
  obtain ⟨⟨⟩, hsubmission, h⟩ := bind_eq_ok h
  obtain ⟨-, h⟩ := guard_eq_ok h
  rw [hid, henvironment, hproject, hkey, hsubmission]
  exact h

theorem opaque_of_storedRunFromRow {row : RunRow} {stored : StoredRun}
    (h : storedRunFromRow row none none = .ok stored) : isOpaqueId row.runId = true := by
  unfold storedRunFromRow PostgresqlRunStore.checkedId at h
  obtain ⟨⟨⟩, hid, -⟩ := bind_eq_ok h
  split at hid
  next hident => exact hident
  · cases hid

/-- What a request does to the runs table: nothing, a new row, or a new record in a row. -/
theorem runs_perform (request : StoreRequest) :
    (PostgresqlRunStore.perform base64 codec collation token db request).2.runs = db.runs ∨
      (∃ record, db.run record.runId = none ∧ Decodes (rowOf record token) ∧
        (PostgresqlRunStore.perform base64 codec collation token db request).2.runs =
          db.runs ++ [rowOf record token]) ∨
      ∃ record revision row, db.run record.runId = some row ∧
        Decodes (savedRow record token row) ∧
        (PostgresqlRunStore.perform base64 codec collation token db request).2.runs =
          Tables.updateWhere RunRow.runId db.runs record.runId (hasRevision revision)
            (savedRow record token) := by
  unfold PostgresqlRunStore.perform
  cases request with
  | claim record =>
    cases hclaim : PostgresqlRunStore.claim db token record with
    | error e =>
      left
      simp only [hclaim, Except.map, PostgresqlRunStore.committed]
    | ok result =>
      obtain ⟨claim, after⟩ := result
      simp only [hclaim, Except.map, PostgresqlRunStore.committed]
      unfold PostgresqlRunStore.claim at hclaim
      obtain ⟨-, hclaim⟩ := guard_eq_ok hclaim
      obtain ⟨⟨⟩, -, hclaim⟩ := bind_eq_ok hclaim
      simp only at hclaim
      split at hclaim
      next hfree =>
        obtain ⟨stored, hstored, hclaim⟩ := bind_eq_ok hclaim
        obtain ⟨-, rfl⟩ := Prod.mk.inj (Except.ok.inj hclaim)
        rw [Bool.and_eq_true] at hfree
        right
        left
        exact ⟨record, Option.isNone_iff_eq_none.mp hfree.1, decodes_of_addressed hstored, rfl⟩
      next htaken =>
        split at hclaim
        · cases hclaim
        · obtain ⟨stored, -, hclaim⟩ := bind_eq_ok hclaim
          obtain ⟨⟨⟩, -, hclaim⟩ := bind_eq_ok hclaim
          obtain ⟨-, rfl⟩ := Prod.mk.inj (Except.ok.inj hclaim)
          exact .inl rfl
  | get runId =>
    left
    cases hget : PostgresqlRunStore.get db runId <;>
      simp only [hget, Except.map, PostgresqlRunStore.committed]
  | findIdempotency scope =>
    left
    cases hfind : PostgresqlRunStore.findIdempotency db scope <;>
      simp only [hfind, Except.map, PostgresqlRunStore.committed]
  | save stored record =>
    cases hsave : PostgresqlRunStore.save db token stored record with
    | error e =>
      left
      simp only [hsave, Except.map, PostgresqlRunStore.committed]
    | ok result =>
      obtain ⟨saved, after⟩ := result
      simp only [hsave, Except.map, PostgresqlRunStore.committed]
      unfold PostgresqlRunStore.save at hsave
      obtain ⟨-, hsave⟩ := guard_eq_ok hsave
      obtain ⟨⟨⟩, -, hsave⟩ := bind_eq_ok hsave
      obtain ⟨⟨⟩, -, hsave⟩ := bind_eq_ok hsave
      obtain ⟨-, hsave⟩ := guard_eq_ok hsave
      split at hsave
      · cases hsave
      next row hrow =>
        obtain ⟨saved', hsaved, hsave⟩ := bind_eq_ok hsave
        obtain ⟨-, rfl⟩ := Prod.mk.inj (Except.ok.inj hsave)
        right
        right
        exact ⟨record, stored.revision, row, (Option.filter_eq_some_iff.mp hrow).1,
          decodes_of_addressed hsaved, rfl⟩
  | appendAttempt attempt =>
    left
    cases happend : PostgresqlRunStore.appendAttempt db attempt with
    | error e => simp only [happend, Except.map, PostgresqlRunStore.committed]
    | ok after =>
      simp only [happend, Except.map, PostgresqlRunStore.committed]
      exact runs_appendAttempt happend
  | claimMutation keySha256 operation runId result =>
    left
    cases hclaim : PostgresqlRunStore.claimMutation db codec keySha256 operation runId result with
    | error e => simp only [hclaim, Except.map, PostgresqlRunStore.committed]
    | ok claimed =>
      simp only [hclaim, Except.map, PostgresqlRunStore.committed]
      exact runs_claimMutation hclaim
  | list cursor limit =>
    left
    cases hlist : PostgresqlRunStore.list base64 collation db false cursor limit <;>
      simp only [hlist, Except.map, PostgresqlRunStore.committed]
  | listPending cursor limit =>
    left
    cases hlist : PostgresqlRunStore.list base64 collation db true cursor limit <;>
      simp only [hlist, Except.map, PostgresqlRunStore.committed]

/-- Each run has one row, and each row decodes and is marked as its record says. -/
structure RowsStand (db : Database) : Prop where
  nodup : (db.runs.map RunRow.runId).Nodup
  decodes : ∀ row ∈ db.runs, Decodes row
  flagged : Flagged db

theorem RowsStand.perform (h : RowsStand db) (request : StoreRequest) :
    RowsStand (PostgresqlRunStore.perform base64 codec collation token db request).2 ∧
      db.runs.map RunRow.runId ⊆
        (PostgresqlRunStore.perform base64 codec collation token db request).2.runs.map
          RunRow.runId := by
  have hflagged := @Flagged.perform base64 codec collation db h.flagged token request
  rcases @runs_perform base64 codec collation token db request with
    hsame | ⟨record, hfree, hdecodes, hruns⟩ | ⟨record, revision, row, hrow, hdecodes, hruns⟩
  · refine ⟨⟨?_, ?_, hflagged⟩, ?_⟩
    · rw [hsame]
      exact h.nodup
    · rw [hsame]
      exact h.decodes
    · rw [hsame]
      exact List.Subset.refl _
  · refine ⟨⟨?_, ?_, hflagged⟩, ?_⟩
    · rw [hruns]
      exact Tables.nodup_append_new h.nodup hfree
    · rw [hruns]
      intro other hother
      rcases List.mem_append.mp hother with hold | hnew
      · exact h.decodes other hold
      · obtain rfl := List.mem_singleton.mp hnew
        exact hdecodes
    · rw [hruns, List.map_append]
      exact List.subset_append_left _ _
  · have hkeys : (Tables.updateWhere RunRow.runId db.runs record.runId (hasRevision revision)
        (savedRow record token)).map RunRow.runId = db.runs.map RunRow.runId :=
      Tables.map_key_updateWhere fun _ => rfl
    refine ⟨⟨?_, ?_, hflagged⟩, ?_⟩
    · rw [hruns, hkeys]
      exact h.nodup
    · rw [hruns]
      intro other hother
      obtain ⟨old, hold, rfl⟩ := List.mem_map.mp hother
      split
      next hsaved =>
        have hselected := Tables.select_of_mem h.nodup hold
        rw [hsaved.1] at hselected
        obtain rfl : row = old := Option.some.inj (hrow.symm.trans hselected)
        exact hdecodes
      next => exact h.decodes old hold
    · rw [hruns, hkeys]
      exact List.Subset.refl _

end Rows

section Listing

variable (codec : ResultCodec) (collation : Collation) (pendingOnly : Bool)

/-- The listing of the runs table, of all runs or of those that still need reconciliation. -/
def postgresqlRuns : ListedStore Database StoredRun where
  initial := Database.empty
  changes db after := ∃ token request,
    after = (PostgresqlRunStore.perform cursorBase64 codec collation token db request).2
  lists cursor limit db answer after := after = db ∧
    answer = (PostgresqlRunStore.list cursorBase64 collation db pendingOnly cursor limit).map
      fun page => ⟨page.items, page.nextCursor⟩
  runId stored := stored.record.runId
  runs db := db.runs.map RunRow.runId
  listed db run := ∃ row ∈ db.runs, row.runId = run ∧
    (pendingOnly = true → runNeedsReconciliation row.recordBytes = true)
  accepts text := ∃ after, PostgresqlRunStore.decodeCursor cursorBase64 (some text) = .ok after
  intact _ := True

variable {codec collation pendingOnly} {db : Database} {cursor : Option String} {limit : ℤ}

/-- A cursor that is handed out is taken again. -/
theorem decodeCursor_encode {runId : String} (h : isOpaqueId runId = true) :
    PostgresqlRunStore.decodeCursor cursorBase64 (some (cursorBase64.encode runId)) =
      .ok (some runId) := by
  obtain ⟨hnonempty, hshort, hascii⟩ := ascii_of_isOpaqueId h
  have hsize := Base64Text.utf8ByteSize_of_ascii hascii
  have hlength := Base64Text.length_encodeText runId
  have hencode : cursorBase64.encode runId = Base64Text.encodeText runId := rfl
  rw [hsize] at hlength
  unfold PostgresqlRunStore.decodeCursor
  simp only
  rw [if_neg (by
    rintro (hempty | hlong)
    · rw [hencode] at hempty
      rw [hempty] at hlength
      simp only [String.toList_empty, List.length_nil] at hlength
      omega
    · rw [hencode, hlength] at hlong
      omega), cursorBase64.decode_encode]
  simp [PostgresqlRunStore.encodeCursor, PostgresqlRunStore.checkedId, h, bind, Except.bind, pure,
    Except.pure]

theorem mem_pageRows (h : RowsStand db) {after : Option String} {run : String} :
    run ∈ (pageRows collation db pendingOnly after).map RunRow.runId ↔
      (postgresqlRuns codec collation pendingOnly).listed db run ∧
        After collation.le after run := by
  have hafter : ∀ name, GraphStore.isAfter collation.le after name = true ↔
      After collation.le after name := by
    intro name
    cases after with
    | none => simp [GraphStore.isAfter, After]
    | some last => simp [GraphStore.isAfter, After]
  unfold pageRows
  simp only [List.mem_map, List.mem_insertionSort, List.mem_filter, Bool.and_eq_true, hafter]
  constructor
  · rintro ⟨row, ⟨hrow, hkind, hlater⟩, rfl⟩
    refine ⟨⟨row, hrow, rfl, ?_⟩, hlater⟩
    rintro rfl
    rw [← h.flagged row hrow]
    simpa using hkind
  · rintro ⟨⟨row, hrow, rfl, hkind⟩, hlater⟩
    refine ⟨row, ⟨hrow, ?_, hlater⟩, rfl⟩
    cases pendingOnly with
    | false => rfl
    | true =>
      have hneeds := hkind rfl
      rw [← h.flagged row hrow] at hneeds
      simpa using hneeds

theorem isPage_postgresql (h : RowsStand db) {page : PostgresqlRunStore.StoredRunPage}
    (hlist : PostgresqlRunStore.list cursorBase64 collation db pendingOnly cursor limit =
      .ok page) :
    page.items.map (fun stored => stored.record.runId) ⊆ db.runs.map RunRow.runId ∧
      IsPage collation.le ((postgresqlRuns codec collation pendingOnly).listed db)
        (cursor.bind cursorBase64.decode) (page.items.map fun stored => stored.record.runId)
        (page.nextCursor.bind cursorBase64.decode) ∧
      ∀ text, page.nextCursor = some text →
        (postgresqlRuns codec collation pendingOnly).accepts text ∧
          (cursorBase64.decode text).isSome := by
  obtain ⟨size, hpositive, hids, hnext⟩ := list_eq_ok hlist
  have hmem : ∀ run, run ∈ (pageRows collation db pendingOnly
      (cursor.bind cursorBase64.decode)).map RunRow.runId ↔
        (postgresqlRuns codec collation pendingOnly).listed db run ∧
          After collation.le (cursor.bind cursorBase64.decode) run := fun run => mem_pageRows h
  have hsorted : ((pageRows collation db pendingOnly
      (cursor.bind cursorBase64.decode)).map RunRow.runId).Pairwise collation.le := by
    rw [List.pairwise_map]
    exact List.pairwise_insertionSort _ _
  have hnodup : ((pageRows collation db pendingOnly
      (cursor.bind cursorBase64.decode)).map RunRow.runId).Nodup := by
    have hperm := (List.perm_insertionSort
      (fun first second : RunRow => collation.le first.runId second.runId)
      (db.runs.filter fun row => (!pendingOnly || row.needsReconciliation) &&
        GraphStore.isAfter collation.le (cursor.bind cursorBase64.decode) row.runId)).map
          RunRow.runId
    exact hperm.nodup_iff.mpr (h.nodup.sublist (List.filter_sublist.map _))
  rw [List.map_take] at hids
  have hlength : ((pageRows collation db pendingOnly
      (cursor.bind cursorBase64.decode)).map RunRow.runId).length =
        (pageRows collation db pendingOnly (cursor.bind cursorBase64.decode)).length :=
    List.length_map _
  rw [← hlength] at hnext
  generalize (pageRows collation db pendingOnly
    (cursor.bind cursorBase64.decode)).map RunRow.runId = all at *
  rw [hids]
  refine ⟨?_, ?_, ?_⟩
  · intro run hrun
    obtain ⟨⟨row, hrow, rfl, -⟩, -⟩ := (hmem run).mp (List.mem_of_mem_take hrun)
    exact List.mem_map_of_mem hrow
  · apply isPage_take hsorted hnodup hmem
    · intro last hlast
      rcases hnext with ⟨hlarge, final, hfinal, hident, hcursor⟩ | ⟨hsmall, hcursor⟩
      · rw [hcursor, Option.bind_some, cursorBase64.decode_encode] at hlast
        obtain rfl := Option.some.inj hlast
        rw [← hids, List.getLast?_map, hfinal]
        rfl
      · rw [hcursor] at hlast
        cases hlast
    · intro hnone
      rcases hnext with ⟨hlarge, final, hfinal, hident, hcursor⟩ | ⟨hsmall, hcursor⟩
      · rw [hcursor, Option.bind_some, cursorBase64.decode_encode] at hnone
        cases hnone
      · exact hsmall
  · intro text htext
    rcases hnext with ⟨hlarge, final, hfinal, hident, hcursor⟩ | ⟨hsmall, hcursor⟩
    · rw [hcursor] at htext
      obtain rfl := Option.some.inj htext
      refine ⟨⟨_, decodeCursor_encode hident⟩, ?_⟩
      rw [cursorBase64.decode_encode]
      rfl
    · rw [hcursor] at htext
      cases htext

theorem list_answers (h : RowsStand db)
    (haccepts : ∀ text, cursor = some text →
      (postgresqlRuns codec collation pendingOnly).accepts text)
    (hpositive : 1 ≤ limit) (hbound : limit ≤ 100) :
    ∃ page, PostgresqlRunStore.list cursorBase64 collation db pendingOnly cursor limit =
      .ok page := by
  have hsize : ∀ message, RunStore.checkedPageSize limit message = .ok limit.toNat := fun message =>
    if_pos ⟨hpositive, hbound⟩
  have hafter : ∃ after, PostgresqlRunStore.decodeCursor cursorBase64 cursor = .ok after := by
    cases cursor with
    | none => exact ⟨none, rfl⟩
    | some text => exact haccepts text rfl
  obtain ⟨after, hafter⟩ := hafter
  have hdecodes : ∀ row ∈ ((pageRows collation db pendingOnly after).take
      (limit.toNat + 1)).take limit.toNat, Decodes row := by
    intro row hrow
    have hmem := List.mem_of_mem_take (List.mem_of_mem_take hrow)
    unfold pageRows at hmem
    rw [List.mem_insertionSort] at hmem
    exact h.decodes row (List.mem_filter.mp hmem).1
  obtain ⟨items, hitems⟩ := mapM_ok hdecodes
  unfold PostgresqlRunStore.list
  rw [hsize, ok_bind, hafter, ok_bind]
  simp only [hitems, ok_bind]
  cases hlast : items.getLast? with
  | none => exact ⟨_, rfl⟩
  | some last =>
    obtain ⟨row, hrow, hstored⟩ := exists_of_mem_mapM hitems (List.mem_of_getLast? hlast)
    have hident : isOpaqueId last.record.runId = true := by
      rw [runId_of_storedRunFromRow hstored]
      exact opaque_of_storedRunFromRow hstored
    have hencode : PostgresqlRunStore.encodeCursor cursorBase64 last.record.runId =
        .ok (cursorBase64.encode last.record.runId) := by
      simp [PostgresqlRunStore.encodeCursor, PostgresqlRunStore.checkedId, hident, bind,
        Except.bind, pure, Except.pure]
    simp only [hencode]
    split
    · exact ⟨_, rfl⟩
    · exact ⟨_, rfl⟩

theorem postgresqlRuns_pagesByKey :
    PagesByKey (postgresqlRuns codec collation pendingOnly) collation.le RowsStand
      cursorBase64.decode := by
  constructor
  · exact ⟨List.nodup_nil, by simp [postgresqlRuns, Database.empty],
      by simp [postgresqlRuns, Flagged, Database.empty]⟩
  · rintro db after h ⟨token, request, rfl⟩
    exact h.perform request
  · rintro cursor limit db page after h ⟨rfl, hanswer⟩
    cases hlist : PostgresqlRunStore.list cursorBase64 collation after pendingOnly cursor limit with
    | error e =>
      rw [hlist] at hanswer
      cases hanswer
    | ok stored =>
      rw [hlist] at hanswer
      obtain rfl := Except.ok.inj hanswer
      obtain ⟨hids, hpage, hnext⟩ := @isPage_postgresql codec _ _ _ _ _ h _ hlist
      exact ⟨h, List.Subset.refl _, hids, hpage, hnext⟩

theorem postgresqlRuns_listsEachRunOnce :
    ListsEachRunOnce (postgresqlRuns codec collation pendingOnly) := by
  apply postgresqlRuns_pagesByKey.listsEachRunOnce
  intro db cursor limit h _ haccepts hpositive hbound
  obtain ⟨page, hlist⟩ := list_answers h haccepts hpositive hbound
  refine ⟨⟨page.items, page.nextCursor⟩, rfl, ?_⟩
  rw [hlist]
  rfl

end Listing

end Dander.RunListings
