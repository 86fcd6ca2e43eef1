import Dander.Concurrency
import Dander.Tables
import Dander.TransactionScript
import Mathlib.Data.Rat.Defs

/-!
# Watermark stores

BigQuery, PostgreSQL and SQLite keep one committed cursor for a source and an entity. A cursor is
replaced if it is still the expected one: by a merge, by an insert or an update, and by a read and
a write in one transaction. With a fence, BigQuery runs the merge in a script that asserts that
the run has its lease and that the merge took effect.
-/
namespace Dander.Watermarks

open Concurrency (FencingToken)
open TransactionScript (Action Statement ScriptError Session Outcome)

section Calls

structure WatermarkRow where
  source : String
  entity : String
  lastCursor : String
  deriving DecidableEq

def WatermarkRow.key (row : WatermarkRow) : String × String := (row.source, row.entity)

inductive Call where
  | get (source entity : String)
  | set (source entity cursor : String)
  | compareAndSet (source entity : String) (expected : Option String) (cursor : String)
      (fence : Option FencingToken)

def Call.fence : Call → Option FencingToken
  | .compareAndSet _ _ _ _ fence => fence
  | _ => none

inductive Reply where
  | cursor (value : Option String)
  | done
  | committed (value : Bool)
  deriving DecidableEq

inductive WatermarkError where
  | value (message : String)
  | query (error : ScriptError String)
  deriving DecidableEq

structure LeaseRow where
  pipelineId : String
  runId : Option String
  fencingToken : ℤ
  leaseExpiresAt : ℚ

/-- The lease tables of BigQuery and its clock while a call is answered. -/
structure Leases where
  table : String → List LeaseRow
  now : ℚ

end Calls

section Stores

abbrev Rows := List WatermarkRow

def storedCursor (rows : Rows) (source entity : String) : Option String :=
  (Tables.select WatermarkRow.key rows (source, entity)).map WatermarkRow.lastCursor

/-- `INSERT ... ON CONFLICT DO UPDATE` -/
def upsert (row : WatermarkRow) (rows : Rows) : Rows :=
  if (Tables.select WatermarkRow.key rows row.key).isSome then
    Tables.updateWhere WatermarkRow.key rows row.key (fun _ => true)
      fun old => { old with lastCursor := row.lastCursor }
  else rows ++ [row]

def sqliteAnswer : Call → Rows → Except WatermarkError Reply × Rows
  | .get source entity, rows => (.ok (.cursor (storedCursor rows source entity)), rows)
  | .set source entity cursor, rows => (.ok .done, upsert ⟨source, entity, cursor⟩ rows)
  | .compareAndSet source entity expected cursor _, rows =>
    if storedCursor rows source entity ≠ expected then (.ok (.committed false), rows)
    else (.ok (.committed true), upsert ⟨source, entity, cursor⟩ rows)

/-- `INSERT ... ON CONFLICT DO NOTHING`, with the row count. -/
def insertAbsent (row : WatermarkRow) (rows : Rows) : ℕ × Rows :=
  (if (Tables.select WatermarkRow.key rows row.key).isSome then 0 else 1,
    Tables.insertNew WatermarkRow.key rows row)

/-- `UPDATE ... WHERE last_cursor IS NOT DISTINCT FROM`, with the row count. -/
def updateExpected (expected : String) (row : WatermarkRow) (rows : Rows) : ℕ × Rows :=
  (rows.countP fun old => old.key = row.key ∧ old.lastCursor = expected,
    Tables.updateWhere WatermarkRow.key rows row.key (fun old => old.lastCursor = expected)
      fun old => { old with lastCursor := row.lastCursor })

def postgresqlAnswer : Call → Rows → Except WatermarkError Reply × Rows
  | .get source entity, rows => (.ok (.cursor (storedCursor rows source entity)), rows)
  | .set source entity cursor, rows => (.ok .done, upsert ⟨source, entity, cursor⟩ rows)
  | .compareAndSet source entity expected cursor _, rows =>
    let result := match expected with
      | none => insertAbsent ⟨source, entity, cursor⟩ rows
      | some expected => updateExpected expected ⟨source, entity, cursor⟩ rows
    (.ok (.committed (result.1 == 1)), result.2)

/-- A merge of one row, with the row count: rows of its key are updated if they match, and the row
is inserted if none has its key and it may be. -/
def merge (matched : WatermarkRow → Bool) (insert : Bool) (row : WatermarkRow) (rows : Rows) :
    ℕ × Rows :=
  if rows.any fun old => decide (old.key = row.key) then
    (rows.countP fun old => old.key = row.key ∧ matched old,
      Tables.updateWhere WatermarkRow.key rows row.key matched
        fun old => { old with lastCursor := row.lastCursor })
  else if insert then (1, rows ++ [row])
  else (0, rows)

def mergeExpected (expected : Option String) (row : WatermarkRow) (rows : Rows) : ℕ × Rows :=
  merge (fun old => decide (some old.lastCursor = expected)) expected.isNone row rows

/-- The statements of a script set the row count of the last one. -/
abbrev ScriptAction := Action Rows ℕ String

/-- How many lease rows the run of a fence has. -/
def leaseRows (leases : Leases) (table : String) (fence : FencingToken) : ℕ :=
  (leases.table table).countP fun row =>
    row.pipelineId = fence.pipelineId ∧ row.runId = some fence.runId ∧
      row.fencingToken = fence.token ∧ leases.now < row.leaseExpiresAt

/-- The update of the run's lease row, which changes nothing. -/
def touchLease (leases : Leases) (table : String) (fence : FencingToken) : ScriptAction :=
  fun rows _ => .ok (rows, leaseRows leases table fence)

def assertOneRow (message : String) : ScriptAction :=
  TransactionScript.assert (fun _ rowCount => .ok (decide (rowCount = 1))) message

def mergeStatement (expected : Option String) (row : WatermarkRow) : ScriptAction :=
  fun rows _ => .ok ((mergeExpected expected row rows).2, (mergeExpected expected row rows).1)

/-- `fenced_dml` -/
def fencedDml (leases : Leases) (table : String) (fence : FencingToken) (expected : Option String)
    (row : WatermarkRow) : List (Statement Rows ℕ String) :=
  TransactionScript.transaction []
    [touchLease leases table fence, assertOneRow "Dander pipeline lease lost",
      mergeStatement expected row, assertOneRow "Dander watermark boundary changed"] []

def scriptReply : Except (ScriptError String) ℕ → Except WatermarkError Reply
  | .ok _ => .ok (.committed true)
  | .error error => .error (.query error)

def bigqueryAnswer (leases : Leases) : Call → Rows → Except WatermarkError Reply × Rows
  | .get source entity, rows => (.ok (.cursor (storedCursor rows source entity)), rows)
  | .set source entity cursor, rows =>
    (.ok .done, (merge (fun _ => true) true ⟨source, entity, cursor⟩ rows).2)
  | .compareAndSet source entity expected cursor none, rows =>
    let result := mergeExpected expected ⟨source, entity, cursor⟩ rows
    (.ok (.committed (result.1 == 1)), result.2)
  | .compareAndSet source entity expected cursor (some fence), rows =>
    match fence.leaseTable with
    | none =>
      (.error (.value "State-side BigQuery fencing requires a BigQuery lease table"), rows)
    | some table =>
      let outcome := TransactionScript.execute none
        (fencedDml leases table fence expected ⟨source, entity, cursor⟩) ⟨rows, none, 0⟩
      (scriptReply outcome.result, outcome.stored)

inductive Store where
  | bigquery
  | postgresql
  | sqlite
  deriving DecidableEq

def answer (store : Store) (leases : Leases) (call : Call) (rows : Rows) :
    Except WatermarkError Reply × Rows :=
  match store with
  | .bigquery => bigqueryAnswer leases call rows
  | .postgresql => postgresqlAnswer call rows
  | .sqlite => sqliteAnswer call rows

/-- The answers to calls, each with the leases at its time. -/
def answers (store : Store) : List (Leases × Call) → Rows → List (Except WatermarkError Reply)
  | [], _ => []
  | (leases, call) :: rest, rows =>
    (answer store leases call rows).1 :: answers store rest (answer store leases call rows).2

def after (store : Store) : List (Leases × Call) → Rows → Rows
  | [], rows => rows
  | (leases, call) :: rest, rows => after store rest (answer store leases call rows).2

end Stores

section Cursors

/-- What a store is for: the committed cursor of each source and entity. -/
abbrev Cursors := String × String → Option String

def expectedReply (cursors : Cursors) : Call → Reply
  | .get source entity => .cursor (cursors (source, entity))
  | .set .. => .done
  | .compareAndSet source entity expected _ _ =>
    .committed (decide (cursors (source, entity) = expected))

def expectedCursors (cursors : Cursors) : Call → Cursors
  | .get .. => cursors
  | .set source entity cursor => Function.update cursors (source, entity) (some cursor)
  | .compareAndSet source entity expected cursor _ =>
    if cursors (source, entity) = expected then
      Function.update cursors (source, entity) (some cursor)
    else cursors

structure Holds (rows : Rows) (cursors : Cursors) : Prop where
  nodup : (rows.map WatermarkRow.key).Nodup
  selects : ∀ key, (Tables.select WatermarkRow.key rows key).map WatermarkRow.lastCursor =
    cursors key

variable {rows : Rows} {cursors : Cursors} {row : WatermarkRow} {leases : Leases}

theorem Holds.stored (h : Holds rows cursors) (source entity : String) :
    storedCursor rows source entity = cursors (source, entity) :=
  h.selects (source, entity)

theorem key_setCursor (cursor : String) (old : WatermarkRow) :
    ({ old with lastCursor := cursor } : WatermarkRow).key = old.key := rfl

/-- The row of the key gets the cursor. -/
theorem Holds.updateRow (h : Holds rows cursors) {cond : WatermarkRow → Bool} {old : WatermarkRow}
    (hselect : Tables.select WatermarkRow.key rows row.key = some old) (hcond : cond old = true) :
    Holds (Tables.updateWhere WatermarkRow.key rows row.key cond
        fun old => { old with lastCursor := row.lastCursor })
      (Function.update cursors row.key (some row.lastCursor)) := by
  have hkey := key_setCursor row.lastCursor
  constructor
  · rw [Tables.map_key_updateWhere hkey]
    exact h.nodup
  · intro key
    by_cases heq : key = row.key
    · subst heq
      rw [Function.update_self, Tables.select_updateWhere_self hkey hselect, if_pos hcond]
      rfl
    · rw [Function.update_of_ne heq, Tables.select_updateWhere_of_ne hkey heq]
      exact h.selects key

theorem updateWhere_of_false {cond : WatermarkRow → Bool} {change : WatermarkRow → WatermarkRow}
    (h : ∀ old ∈ rows, old.key = row.key → cond old = false) :
    Tables.updateWhere WatermarkRow.key rows row.key cond change = rows := by
  unfold Tables.updateWhere
  conv_rhs => rw [← List.map_id' rows]
  apply List.map_congr_left
  intro old hold
  rw [if_neg]
  rintro ⟨hkey, hcond⟩
  rw [h old hold hkey] at hcond
  cases hcond

theorem Holds.appendRow (h : Holds rows cursors)
    (hselect : Tables.select WatermarkRow.key rows row.key = none) :
    Holds (rows ++ [row]) (Function.update cursors row.key (some row.lastCursor)) := by
  constructor
  · exact Tables.nodup_append_new h.nodup hselect
  · intro key
    rw [Tables.select_append_new hselect]
    by_cases heq : key = row.key
    · subst heq
      rw [if_pos rfl, Function.update_self]
      rfl
    · rw [if_neg heq, Function.update_of_ne heq]
      exact h.selects key

theorem Holds.upsert (h : Holds rows cursors) :
    Holds (upsert row rows) (Function.update cursors row.key (some row.lastCursor)) := by
  unfold Watermarks.upsert
  cases hselect : Tables.select WatermarkRow.key rows row.key with
  | none => exact h.appendRow hselect
  | some old => exact h.updateRow hselect rfl

/-- The rows of a key that match are none, or the only one. -/
theorem countP_key (hnodup : (rows.map WatermarkRow.key).Nodup) (key : String × String)
    (cond : WatermarkRow → Bool) :
    (rows.countP fun old => old.key = key ∧ cond old) =
      if ((Tables.select WatermarkRow.key rows key).any cond) = true then 1 else 0 := by
  induction rows with
  | nil => rfl
  | cons first rest ih =>
    rw [List.map_cons, List.nodup_cons] at hnodup
    rw [List.countP_cons, ih hnodup.2]
    by_cases hfirst : first.key = key
    · have hrest : Tables.select WatermarkRow.key rest key = none := by
        rw [Tables.select_eq_none]
        intro other hother heq
        exact hnodup.1 (List.mem_map.mpr ⟨other, hother, heq.trans hfirst.symm⟩)
      have hselect : Tables.select WatermarkRow.key (first :: rest) key = some first := by
        simp [Tables.select, hfirst]
      simp [hrest, hselect, hfirst]
    · have hselect : Tables.select WatermarkRow.key (first :: rest) key =
          Tables.select WatermarkRow.key rest key := by
        simp [Tables.select, hfirst]
      simp [hselect, hfirst]

/-- What a compare-and-set does: it counts one row and stores the cursor, or counts none and
changes nothing. -/
def Committed (cursors : Cursors) (expected : Option String) (row : WatermarkRow)
    (result : ℕ × Rows) (rows : Rows) : Prop :=
  if cursors row.key = expected then
    result.1 = 1 ∧ Holds result.2 (Function.update cursors row.key (some row.lastCursor))
  else result = (0, rows)

theorem committed_insertAbsent (h : Holds rows cursors) :
    Committed cursors none row (insertAbsent row rows) rows := by
  unfold Committed insertAbsent Tables.insertNew
  rw [← h.selects row.key]
  cases hselect : Tables.select WatermarkRow.key rows row.key with
  | none => exact ⟨rfl, h.appendRow hselect⟩
  | some old => simp

/-- The update of the row that has the expected cursor, unless both are missing. -/
theorem committed_update (h : Holds rows cursors) {expected : Option String}
    {cond : WatermarkRow → Bool} (hcond : ∀ old, cond old = true ↔ some old.lastCursor = expected)
    (hpresent : Tables.select WatermarkRow.key rows row.key = none → expected ≠ none) :
    Committed cursors expected row (rows.countP fun old => old.key = row.key ∧ cond old,
      Tables.updateWhere WatermarkRow.key rows row.key cond
        fun old => { old with lastCursor := row.lastCursor }) rows := by
  have hany : ((Tables.select WatermarkRow.key rows row.key).any cond) = true ↔
      cursors row.key = expected := by
    rw [← h.selects row.key]
    cases hselect : Tables.select WatermarkRow.key rows row.key with
    | none => simpa using (hpresent hselect).symm
    | some old => simpa using hcond old
  unfold Committed
  rw [countP_key h.nodup]
  by_cases hexpected : cursors row.key = expected
  · rw [if_pos hexpected, if_pos (hany.mpr hexpected)]
    cases hselect : Tables.select WatermarkRow.key rows row.key with
    | none =>
      rw [← h.selects row.key, hselect] at hexpected
      exact absurd hexpected.symm (hpresent hselect)
    | some old =>
      have hold : cond old = true := by simpa [hselect] using hany.mpr hexpected
      exact ⟨rfl, h.updateRow hselect hold⟩
  · rw [if_neg hexpected, if_neg (mt hany.mp hexpected), updateWhere_of_false]
    intro old hold hkey
    by_contra htrue
    rw [Bool.not_eq_false, hcond] at htrue
    apply hexpected
    rw [← h.selects row.key, ← hkey, Tables.select_of_mem h.nodup hold, Option.map_some, htrue]

theorem committed_updateExpected (h : Holds rows cursors) (expected : String) :
    Committed cursors (some expected) row (updateExpected expected row rows) rows := by
  unfold updateExpected
  have hupdate := @committed_update rows cursors row h (some expected)
    (fun old => decide (old.lastCursor = expected)) (by simp) (by simp)
  simpa only [decide_eq_true_eq] using hupdate

theorem any_key : (rows.any fun old => decide (old.key = row.key)) =
    (Tables.select WatermarkRow.key rows row.key).isSome := by
  rw [Bool.eq_iff_iff, Option.isSome_iff_ne_none, ne_eq, Tables.select_eq_none]
  simp

theorem committed_mergeExpected (h : Holds rows cursors) (expected : Option String) :
    Committed cursors expected row (mergeExpected expected row rows) rows := by
  unfold mergeExpected merge
  rw [any_key]
  cases hselect : Tables.select WatermarkRow.key rows row.key with
  | none =>
    have hcursor : cursors row.key = none := by
      rw [← h.selects row.key, hselect]
      rfl
    unfold Committed
    rw [hcursor]
    cases expected with
    | none => exact ⟨rfl, h.appendRow hselect⟩
    | some expected => simp
  | some old =>
    exact committed_update h (by simp) (by simp [hselect])

/-- What `set` merges is an upsert. -/
theorem merge_true : (merge (fun _ => true) true row rows).2 = upsert row rows := by
  unfold merge upsert
  rw [any_key]
  cases Tables.select WatermarkRow.key rows row.key with
  | none => rfl
  | some old => rfl

end Cursors

section Answers

variable {rows : Rows} {cursors : Cursors} {row : WatermarkRow} {leases : Leases} {call : Call}
  {store : Store}

/-- The run of a fence has the unexpired lease in its table. -/
def Owned (leases : Leases) (fence : FencingToken) : Prop :=
  ∃ table, fence.leaseTable = some table ∧ leaseRows leases table fence = 1

/-- How a store tells a reply. The script of a fence fails where the boundary has changed. -/
def report (store : Store) (call : Call) (reply : Reply) : Except WatermarkError Reply :=
  if store = .bigquery ∧ call.fence.isSome ∧ reply = .committed false then
    .error (.query (.statement "Dander watermark boundary changed"))
  else .ok reply

theorem holds_of_committed {expected : Option String} {source entity cursor : String}
    {fence : Option FencingToken} {result : ℕ × Rows} (h : Holds rows cursors)
    (hcommitted : Committed cursors expected ⟨source, entity, cursor⟩ result rows) :
    (result.1 == 1) = decide (cursors (source, entity) = expected) ∧
      Holds result.2
        (expectedCursors cursors (.compareAndSet source entity expected cursor fence)) := by
  unfold Committed WatermarkRow.key at hcommitted
  by_cases hexpected : cursors (source, entity) = expected
  · rw [if_pos hexpected] at hcommitted
    simp only [expectedCursors, hcommitted.1, hexpected]
    exact ⟨by simp, hcommitted.2⟩
  · rw [if_neg hexpected] at hcommitted
    simp only [expectedCursors, if_neg hexpected, hcommitted]
    exact ⟨by simp [hexpected], h⟩

theorem fencedDml_of_not_owned {table : String} {fence : FencingToken} {expected : Option String}
    (hcount : leaseRows leases table fence ≠ 1) :
    TransactionScript.execute none (fencedDml leases table fence expected row) ⟨rows, none, 0⟩ =
      ⟨rows, .error (.statement "Dander pipeline lease lost")⟩ := by
  simp [fencedDml, TransactionScript.transaction, TransactionScript.execute,
    TransactionScript.step, touchLease, assertOneRow, TransactionScript.assert, hcount]

theorem fencedDml_of_owned {table : String} {fence : FencingToken} {expected : Option String}
    (hcount : leaseRows leases table fence = 1) :
    TransactionScript.execute none (fencedDml leases table fence expected row) ⟨rows, none, 0⟩ =
      if (mergeExpected expected row rows).1 = 1 then
        ⟨(mergeExpected expected row rows).2, .ok 1⟩
      else ⟨rows, .error (.statement "Dander watermark boundary changed")⟩ := by
  by_cases hone : (mergeExpected expected row rows).1 = 1 <;>
    simp [fencedDml, TransactionScript.transaction, TransactionScript.execute,
      TransactionScript.step, touchLease, assertOneRow, TransactionScript.assert, hcount,
      mergeStatement, hone]

/-- The lease that a fenced call of BigQuery asks for is the run's. -/
def Available (store : Store) (leases : Leases) (call : Call) : Prop :=
  store = .bigquery → ∀ fence, call.fence = some fence → Owned leases fence

theorem report_of_ne (hstore : store ≠ .bigquery) (reply : Reply) :
    report store call reply = .ok reply :=
  if_neg fun h => hstore h.1

theorem report_unfenced (hfence : call.fence = none) (reply : Reply) :
    report store call reply = .ok reply := by
  unfold report
  rw [hfence]
  exact if_neg (by simp)

theorem sqliteAnswer_eq (h : Holds rows cursors) :
    (sqliteAnswer call rows).1 = .ok (expectedReply cursors call) ∧
      Holds (sqliteAnswer call rows).2 (expectedCursors cursors call) := by
  cases call with
  | get source entity => exact ⟨by simp [sqliteAnswer, expectedReply, h.stored], h⟩
  | set source entity cursor => exact ⟨rfl, h.upsert⟩
  | compareAndSet source entity expected cursor fence =>
    by_cases hexpected : cursors (source, entity) = expected
    · simp only [sqliteAnswer, h.stored, expectedReply, expectedCursors, hexpected, ne_eq,
        not_true, if_false, if_true]
      exact ⟨rfl, h.upsert⟩
    · simp only [sqliteAnswer, h.stored, expectedReply, expectedCursors, hexpected, ne_eq,
        not_false_eq_true, if_false, if_true]
      exact ⟨rfl, h⟩

theorem postgresqlAnswer_eq (h : Holds rows cursors) :
    (postgresqlAnswer call rows).1 = .ok (expectedReply cursors call) ∧
      Holds (postgresqlAnswer call rows).2 (expectedCursors cursors call) := by
  cases call with
  | get source entity => exact ⟨by simp [postgresqlAnswer, expectedReply, h.stored], h⟩
  | set source entity cursor => exact ⟨rfl, h.upsert⟩
  | compareAndSet source entity expected cursor fence =>
    have hcommitted : ∀ result, Committed cursors expected ⟨source, entity, cursor⟩ result rows →
        (Except.ok (Reply.committed (result.1 == 1)) : Except WatermarkError Reply) =
            .ok (expectedReply cursors (.compareAndSet source entity expected cursor fence)) ∧
          Holds result.2
            (expectedCursors cursors (.compareAndSet source entity expected cursor fence)) := by
      intro result hresult
      obtain ⟨hcount, hholds⟩ := holds_of_committed h hresult
      rw [hcount]
      exact ⟨rfl, hholds⟩
    cases expected with
    | none => exact hcommitted _ (committed_insertAbsent h)
    | some expected => exact hcommitted _ (committed_updateExpected h expected)

theorem bigqueryAnswer_eq (h : Holds rows cursors) (havailable : Available .bigquery leases call) :
    (bigqueryAnswer leases call rows).1 = report .bigquery call (expectedReply cursors call) ∧
      Holds (bigqueryAnswer leases call rows).2 (expectedCursors cursors call) := by
  cases call with
  | get source entity =>
    rw [report_unfenced rfl]
    exact ⟨by simp [bigqueryAnswer, expectedReply, h.stored], h⟩
  | set source entity cursor =>
    rw [report_unfenced rfl]
    refine ⟨rfl, ?_⟩
    show Holds (merge (fun _ => true) true ⟨source, entity, cursor⟩ rows).2 _
    rw [merge_true]
    exact h.upsert
  | compareAndSet source entity expected cursor fence =>
    have hcommitted := @committed_mergeExpected rows cursors ⟨source, entity, cursor⟩ h expected
    cases fence with
    | none =>
      obtain ⟨hcount, hholds⟩ := @holds_of_committed rows cursors expected source entity cursor none
        _ h hcommitted
      rw [report_unfenced rfl]
      simp only [bigqueryAnswer, hcount]
      exact ⟨rfl, hholds⟩
    | some fence =>
      obtain ⟨table, htable, hcount⟩ := havailable rfl fence rfl
      obtain ⟨hone, hholds⟩ := @holds_of_committed rows cursors expected source entity cursor
        (some fence) _ h hcommitted
      simp only [bigqueryAnswer, htable, fencedDml_of_owned hcount, expectedReply]
      by_cases hexpected : cursors (source, entity) = expected
      · rw [decide_eq_true hexpected, beq_iff_eq] at hone
        rw [if_pos hone, decide_eq_true hexpected]
        exact ⟨(if_neg (by simp)).symm, hholds⟩
      · rw [decide_eq_false hexpected, beq_eq_false_iff_ne] at hone
        rw [if_neg hone, decide_eq_false hexpected]
        refine ⟨(if_pos ⟨rfl, rfl, rfl⟩).symm, ?_⟩
        simp only [expectedCursors, if_neg hexpected]
        exact h

/-- A store answers what the cursors that it holds say, and holds what they become. -/
theorem answer_eq (h : Holds rows cursors) (havailable : Available store leases call) :
    (answer store leases call rows).1 = report store call (expectedReply cursors call) ∧
      Holds (answer store leases call rows).2 (expectedCursors cursors call) := by
  cases store with
  | bigquery => exact bigqueryAnswer_eq h havailable
  | postgresql =>
    rw [report_of_ne (by decide)]
    exact postgresqlAnswer_eq h
  | sqlite =>
    rw [report_of_ne (by decide)]
    exact sqliteAnswer_eq h

/-- Without the lease a fenced call raises and changes nothing. -/
theorem answer_unavailable (h : ¬ Available store leases call) :
    ∃ error, answer store leases call rows = (.error error, rows) := by
  unfold Available at h
  push Not at h
  obtain ⟨rfl, fence, hfence, hlost⟩ := h
  cases call with
  | get source entity => cases hfence
  | set source entity cursor => cases hfence
  | compareAndSet source entity expected cursor given =>
    obtain rfl : given = some fence := hfence
    cases htable : fence.leaseTable with
    | none =>
      simp only [answer, bigqueryAnswer, htable]
      exact ⟨_, rfl⟩
    | some table =>
      have hcount : leaseRows leases table fence ≠ 1 := fun hone => hlost ⟨table, htable, hone⟩
      simp only [answer, bigqueryAnswer, htable, fencedDml_of_not_owned hcount]
      exact ⟨_, rfl⟩

end Answers

section Sequences

variable {rows : Rows} {cursors : Cursors} {store : Store} {calls : List (Leases × Call)}
  {key : String × String} {expected : Option String}

def expectedReplies : List Call → Cursors → List Reply
  | [], _ => []
  | call :: rest, cursors =>
    expectedReply cursors call :: expectedReplies rest (expectedCursors cursors call)

theorem answers_eq (h : Holds rows cursors)
    (havailable : ∀ call ∈ calls, Available store call.1 call.2) :
    answers store calls rows = List.zipWith (report store) (calls.map Prod.snd)
        (expectedReplies (calls.map Prod.snd) cursors) ∧
      Holds (after store calls rows)
        ((calls.map Prod.snd).foldl expectedCursors cursors) := by
  induction calls generalizing rows cursors with
  | nil => exact ⟨rfl, h⟩
  | cons first rest ih =>
    obtain ⟨leases, call⟩ := first
    rw [List.forall_mem_cons] at havailable
    obtain ⟨hreply, hholds⟩ := answer_eq h havailable.1
    obtain ⟨hrest, hafter⟩ := ih hholds havailable.2
    refine ⟨?_, hafter⟩
    show (answer store leases call rows).1 :: answers store rest _ = _
    rw [hrest, hreply]
    rfl

/-- What the call is about. -/
def Call.boundary : Call → String × String
  | .get source entity | .set source entity _ | .compareAndSet source entity _ _ _ =>
    (source, entity)

/-- A call that does not set the key's cursor, unless it is still the expected one. -/
def Expects (key : String × String) (expected : Option String) : Call → Prop
  | .get .. => True
  | .set source entity _ => (source, entity) ≠ key
  | .compareAndSet source entity expected' _ _ => (source, entity) = key → expected' = expected

/-- A compare-and-set of the key that succeeded. -/
def Succeeded (key : String × String) (call : Leases × Call)
    (result : Except WatermarkError Reply) : Prop :=
  call.2.boundary = key ∧ result = .ok (.committed true)

def Call.newCursor : Call → Option String
  | .get .. => none
  | .set _ _ cursor | .compareAndSet _ _ _ cursor _ => some cursor

theorem report_committed {call : Call} {reply : Reply}
    (h : report store call reply = .ok (.committed true)) : reply = .committed true := by
  unfold report at h
  split at h
  · cases h
  · exact Except.ok.inj h

/-- A call changes the key's cursor only from the expected one, and then it succeeds. -/
theorem step_key {leases : Leases} {call : Call} (h : Holds rows cursors)
    (hexpects : Expects key expected call) :
    ∃ cursors', Holds (answer store leases call rows).2 cursors' ∧
      (Succeeded key (leases, call) (answer store leases call rows).1 →
        cursors key = expected ∧ cursors' key = call.newCursor) ∧
      (cursors key ≠ expected → cursors' key = cursors key) := by
  by_cases havailable : Available store leases call
  · obtain ⟨hreply, hholds⟩ := @answer_eq rows cursors leases call store h havailable
    refine ⟨_, hholds, ?_, ?_⟩
    · rintro ⟨hkey, hsucceeded⟩
      have hcommitted := report_committed (hreply.symm.trans hsucceeded)
      cases call with
      | get source entity => cases hcommitted
      | set source entity cursor => cases hcommitted
      | compareAndSet source entity expected' cursor fence =>
        obtain rfl : expected' = expected := hexpects hkey
        obtain rfl : (source, entity) = key := hkey
        have hcursor := of_decide_eq_true (Reply.committed.inj hcommitted)
        refine ⟨hcursor, ?_⟩
        simp only [expectedCursors, if_pos hcursor, Function.update_self]
        rfl
    · intro hne
      cases call with
      | get source entity => rfl
      | set source entity cursor => exact Function.update_of_ne hexpects.symm _ _
      | compareAndSet source entity expected' cursor fence =>
        by_cases hcursor : cursors (source, entity) = expected'
        · have hother : key ≠ (source, entity) := by
            intro heq
            rw [hexpects heq.symm, ← heq] at hcursor
            exact hne hcursor
          simp only [expectedCursors, if_pos hcursor]
          exact Function.update_of_ne hother _ _
        · simp only [expectedCursors, if_neg hcursor]
  · obtain ⟨error, hanswer⟩ := answer_unavailable havailable
    rw [hanswer]
    exact ⟨cursors, h, fun hsucceeded => absurd hsucceeded.2 (by simp), fun _ => rfl⟩

/-- Once the key's cursor is another one, no call succeeds that expects the old one. -/
theorem none_succeeds (h : Holds rows cursors) (hne : cursors key ≠ expected)
    (hexpects : ∀ call ∈ calls, Expects key expected call.2) :
    ∀ pair ∈ calls.zip (answers store calls rows), ¬ Succeeded key pair.1 pair.2 := by
  induction calls generalizing rows cursors with
  | nil => simp [answers]
  | cons first rest ih =>
    obtain ⟨leases, call⟩ := first
    rw [List.forall_mem_cons] at hexpects
    obtain ⟨cursors', hholds, hsucceeded, hkept⟩ :=
      @step_key rows cursors store key expected leases call h hexpects.1
    intro pair hpair
    rcases List.mem_cons.mp hpair with rfl | hrest
    · intro hsuccess
      exact hne (hsucceeded hsuccess).1
    · exact ih hholds (by rwa [hkept hne]) hexpects.2 pair hrest

/-- Of the calls that expect one cursor, none succeeds after one that has replaced it. -/
theorem succeeds_once (h : Holds rows cursors)
    (hexpects : ∀ call ∈ calls, Expects key expected call.2) :
    (calls.zip (answers store calls rows)).Pairwise fun first second =>
      Succeeded key first.1 first.2 → first.1.2.newCursor ≠ expected →
        ¬ Succeeded key second.1 second.2 := by
  induction calls generalizing rows cursors with
  | nil => exact List.Pairwise.nil
  | cons first rest ih =>
    obtain ⟨leases, call⟩ := first
    rw [List.forall_mem_cons] at hexpects
    obtain ⟨cursors', hholds, hsucceeded, hkept⟩ :=
      @step_key rows cursors store key expected leases call h hexpects.1
    refine List.pairwise_cons.mpr ⟨?_, ih hholds hexpects.2⟩
    intro second hsecond hsuccess hcursor
    refine none_succeeds hholds ?_ hexpects.2 second hsecond
    rw [(hsucceeded hsuccess).2]
    exact hcursor

/-- Stores that hold the same cursors give the same answers to every sequence of calls, but for how
the fenced script tells a changed boundary; each lets at most one of the calls that expect a cursor
replace it, and raises for a lost lease before anything is written. -/
theorem watermark_stores (cursors : Cursors) :
    (∀ (calls : List (Leases × Call)) (bigquery postgresql sqlite : Rows),
      Holds bigquery cursors → Holds postgresql cursors → Holds sqlite cursors →
      (∀ call ∈ calls, Available .bigquery call.1 call.2) →
      ∃ replies : List Reply,
        answers .sqlite calls sqlite = replies.map .ok ∧
        answers .postgresql calls postgresql = replies.map .ok ∧
        answers .bigquery calls bigquery =
          List.zipWith (report .bigquery) (calls.map Prod.snd) replies ∧
        ∃ final, ∀ store rows, (store, rows) ∈ [(Store.bigquery, bigquery),
          (.postgresql, postgresql), (.sqlite, sqlite)] → Holds (after store calls rows) final) ∧
    (∀ (store : Store) (rows : Rows) (key : String × String) (expected : Option String)
        (calls : List (Leases × Call)), Holds rows cursors →
      (∀ call ∈ calls, Expects key expected call.2) →
      (calls.zip (answers store calls rows)).Pairwise fun first second =>
        Succeeded key first.1 first.2 → first.1.2.newCursor ≠ expected →
          ¬ Succeeded key second.1 second.2) ∧
    ∀ (store : Store) (rows : Rows) (leases : Leases) (call : Call),
      ¬ Available store leases call →
        ∃ error, answer store leases call rows = (.error error, rows) := by
  refine ⟨?_, ?_, ?_⟩
  · intro calls bigquery postgresql sqlite hbigquery hpostgresql hsqlite havailable
    have hplain : ∀ store, store ≠ Store.bigquery →
        ∀ call ∈ calls, Available store call.1 call.2 :=
      fun store hstore _ _ hequal => absurd hequal hstore
    have hreport : ∀ store, store ≠ Store.bigquery → ∀ (asked : List Call) (cursors : Cursors),
        List.zipWith (report store) asked (expectedReplies asked cursors) =
          (expectedReplies asked cursors).map .ok := by
      intro store hstore asked
      induction asked with
      | nil => exact fun _ => rfl
      | cons call rest ih =>
        intro cursors
        simp only [expectedReplies, List.zipWith_cons_cons, List.map_cons, ih,
          report_of_ne hstore]
    obtain ⟨hsqliteAnswers, hsqliteAfter⟩ := answers_eq hsqlite (hplain .sqlite (by decide))
    obtain ⟨hpostgresqlAnswers, hpostgresqlAfter⟩ :=
      answers_eq hpostgresql (hplain .postgresql (by decide))
    obtain ⟨hbigqueryAnswers, hbigqueryAfter⟩ := answers_eq hbigquery havailable
    rw [hreport .sqlite (by decide)] at hsqliteAnswers
    rw [hreport .postgresql (by decide)] at hpostgresqlAnswers
    refine ⟨_, hsqliteAnswers, hpostgresqlAnswers, hbigqueryAnswers,
      (calls.map Prod.snd).foldl expectedCursors cursors, ?_⟩
    intro store rows hstore
    simp only [List.mem_cons, Prod.mk.injEq, List.not_mem_nil, or_false] at hstore
    rcases hstore with ⟨rfl, rfl⟩ | ⟨rfl, rfl⟩ | ⟨rfl, rfl⟩
    · exact hbigqueryAfter
    · exact hpostgresqlAfter
    · exact hsqliteAfter
  · intro store rows key expected calls hholds hexpects
    exact succeeds_once hholds hexpects
  · intro store rows leases call hlost
    exact answer_unavailable hlost

/-- A fence, and the lease of its run. -/
def exampleFence : FencingToken := ⟨some "dander.state.leases", "orders", "run-1", 1, none, 1⟩

def exampleLeases : Leases := ⟨fun _ => [⟨"orders", some "run-1", 1, 60⟩], 0⟩

def exampleRows : Rows := [⟨"shop", "orders", "5"⟩]

/-- With a fence the changed boundary is an error of BigQuery alone, and two calls that expect the
cursor 5 succeed where the first one keeps it. -/
theorem cursor_writes_differ :
    (Available .bigquery exampleLeases
        (.compareAndSet "shop" "orders" (some "4") "6" (some exampleFence)) ∧
      answers .sqlite [(exampleLeases,
        .compareAndSet "shop" "orders" (some "4") "6" (some exampleFence))] exampleRows =
          [.ok (.committed false)] ∧
      answers .bigquery [(exampleLeases,
        .compareAndSet "shop" "orders" (some "4") "6" (some exampleFence))] exampleRows =
          [.error (.query (.statement "Dander watermark boundary changed"))]) ∧
    ∀ store, answers store [(exampleLeases, .compareAndSet "shop" "orders" (some "5") "5" none),
      (exampleLeases, .compareAndSet "shop" "orders" (some "5") "6" none)] exampleRows =
        [.ok (.committed true), .ok (.committed true)] := by
  refine ⟨⟨?_, by decide, by decide⟩, ?_⟩
  · rintro - fence hfence
    cases hfence
    exact ⟨"dander.state.leases", rfl, by decide⟩
  · intro store
    cases store <;> decide

end Sequences

end Dander.Watermarks
