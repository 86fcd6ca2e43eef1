import Dander.LatestRows
import Dander.WriterSemantics

/-!
# Keyed writes of PostgreSQL

The batches of a list of records are written one after another. In SCD1 mode a key is left with
its last record, and in incremental mode with the last greatest of its stored row and its records.
-/
namespace Dander.Postgresql

open KeyedUpsert Execution
open Redshift (Row keyOf cursorRank)
open Snowflake (Checked)

section Writes

variable {n : ℕ} {V : Type} [LinearOrder V]
  {check : ℕ → Row n V → Except PostgreSQLWriteError Unit} {writer : Writer n}
  {table after : Multiset (Row n V)} {records : List (Row n V)} {batches : List (List (Row n V))}

def Writer.Keyed (writer : Writer n) : Prop :=
  writer.mode = .scd1 ∨ ∃ field, writer.mode = .incremental field

/-- The batches, one after another. -/
def writeAll (check : ℕ → Row n V → Except PostgreSQLWriteError Unit) (writer : Writer n)
    (table : Multiset (Row n V)) (batches : List (List (Row n V))) :
    Except PostgreSQLWriteError (Multiset (Row n V)) :=
  batches.foldlM (write check writer) table

/-- The rows of the table with a key. -/
def rowsOf (writer : Writer n) (k : List V) (table : Multiset (Row n V)) : Multiset (Row n V) :=
  table.filter fun row => keyOf writer.businessKey row = some k

def recordsOf (writer : Writer n) (k : List V) (records : List (Row n V)) : List (Row n V) :=
  records.filter fun record => decide (keyOf writer.businessKey record = some k)

/-- No record has the key of the row. -/
def Untouched (writer : Writer n) (records : List (Row n V)) (row : Row n V) : Prop :=
  ∀ record ∈ records, keyOf writer.businessKey row = none ∨
    keyOf writer.businessKey row ≠ keyOf writer.businessKey record

instance (writer : Writer n) (records : List (Row n V)) :
    DecidablePred (Untouched writer records) := fun _ => List.decidableBAll _ _

/-- What the batches of the records leave of a table. -/
structure Written (check : ℕ → Row n V → Except PostgreSQLWriteError Unit) (writer : Writer n)
    (table : Multiset (Row n V)) (batches : List (List (Row n V)))
    (after : Multiset (Row n V)) : Prop where
  keyed : ∀ record ∈ batches.flatten, ∃ k, keyOf writer.businessKey record = some k
  last : writer.mode = .scd1 → ∀ k record,
    (recordsOf writer k batches.flatten).getLast? = some record →
      rowsOf writer k after = {record}
  greatest : ∀ field, writer.mode = .incremental field → ∀ k (stored : Option (Row n V)),
    rowsOf writer k table = Multiset.ofList stored.toList →
      recordsOf writer k batches.flatten ≠ [] →
      ∃ row, LastGreatest (cursorRank (some field))
          (stored.toList ++ recordsOf writer k batches.flatten) row ∧
        rowsOf writer k after = {row}
  unchanged : after.filter (Untouched writer batches.flatten) =
    table.filter (Untouched writer batches.flatten)
  unique : (keys (keyOf writer.businessKey) after).Nodup
  repeated : writeAll check writer after batches = .ok after
  again : ∀ others : List (List (Row n V)), others.flatten = batches.flatten → ∀ last,
    writeAll check writer after others = .ok last → last = after

/-- A run of batches upserts their records. -/
theorem writeAll_upserts (hmode : writer.Keyed)
    (hunique : (keys (keyOf writer.businessKey) table).Nodup)
    (h : writeAll check writer table batches = .ok after) :
    after = upsert (keyOf writer.businessKey) (cursorRank writer.cursorField) table
        batches.flatten ∧
      ∀ record ∈ batches.flatten, Checked writer.businessKey writer.cursorField record := by
  induction batches generalizing table with
  | nil =>
    obtain rfl := Except.ok.inj h
    exact ⟨by rw [List.flatten_nil, upsert_nil], by simp⟩
  | cons batch rest ih =>
    rw [writeAll, List.foldlM_cons] at h
    obtain ⟨next, hwrite, hrest⟩ := bind_eq_ok h
    obtain ⟨hnext, hchecked⟩ := write_keyed hmode hunique hwrite
    have hnextUnique : (keys (keyOf writer.businessKey) next).Nodup := by
      rw [hnext]
      exact (rising_upsert hunique).1
    obtain ⟨hafter, hcheckedRest⟩ := ih hnextUnique hrest
    refine ⟨?_, ?_⟩
    · rw [hafter, hnext, upsert_upsert, List.flatten_cons]
    · intro record hrecord
      rw [List.flatten_cons, List.mem_append] at hrecord
      rcases hrecord with hin | hin
      · exact hchecked record hin
      · exact hcheckedRest record hin

/-- Whether a write goes through does not depend on the table. -/
theorem exists_write (other : Multiset (Row n V))
    (h : write check writer table records = .ok after) :
    ∃ next, write check writer other records = .ok next := by
  unfold write at h ⊢
  obtain ⟨⟨⟩, hvalid, h⟩ := bind_eq_ok h
  obtain ⟨staged, hstaged, -⟩ := bind_eq_ok h
  rw [hvalid, ok_bind, hstaged, ok_bind]
  exact ⟨_, rfl⟩

theorem exists_writeAll (other : Multiset (Row n V))
    (h : writeAll check writer table batches = .ok after) :
    ∃ last, writeAll check writer other batches = .ok last := by
  induction batches generalizing table other with
  | nil => exact ⟨other, rfl⟩
  | cons batch rest ih =>
    rw [writeAll, List.foldlM_cons] at h
    obtain ⟨next, hwrite, hrest⟩ := bind_eq_ok h
    obtain ⟨next', hwrite'⟩ := exists_write other hwrite
    obtain ⟨last, hlast⟩ := ih next' hrest
    refine ⟨last, ?_⟩
    rw [writeAll, List.foldlM_cons, hwrite', ok_bind]
    exact hlast

/-- Whatever the table, the records and their batches: in SCD1 mode each key has its last record,
in incremental mode the last greatest of its stored row and its records, the other rows stay, and
writing the same records again changes nothing. -/
theorem keyed_writes (check : ℕ → Row n V → Except PostgreSQLWriteError Unit) (writer : Writer n)
    (hmode : writer.Keyed) (table : Multiset (Row n V))
    (hunique : (keys (keyOf writer.businessKey) table).Nodup) (batches : List (List (Row n V)))
    (after : Multiset (Row n V)) (h : writeAll check writer table batches = .ok after) :
    Written check writer table batches after := by
  obtain ⟨hafter, hchecked⟩ := writeAll_upserts hmode hunique h
  have hafterUnique : (keys (keyOf writer.businessKey) after).Nodup := by
    rw [hafter]
    exact (rising_upsert hunique).1
  have hagain : ∀ others : List (List (Row n V)), others.flatten = batches.flatten → ∀ last,
      writeAll check writer after others = .ok last → last = after := by
    intro others hothers last hlast
    obtain ⟨hupserted, -⟩ := writeAll_upserts hmode hafterUnique hlast
    rw [hupserted, hothers, hafter, upsert_self]
  constructor
  · intro record hrecord
    exact (hchecked record hrecord).keyed
  · intro hscd1 k record hlast
    have hcursor : writer.cursorField = none := by
      rw [Writer.cursorField, hscd1]
    have hlatest : latest (cursorRank none) (keyOf writer.businessKey) k
        (prune (keyOf writer.businessKey) (cursorRank none) table batches.flatten) =
          some record := by
      rw [Redshift.prune_none, Redshift.latest_eq_lastRecord]
      exact hlast
    rw [rowsOf, hafter, hcursor]
    exact filter_upsert_of_some hunique hlatest
  · intro field hincremental k stored hstored hrecords
    have hcursor : writer.cursorField = some field := by
      rw [Writer.cursorField, hincremental]
    obtain ⟨record, hrecord⟩ := List.exists_mem_of_ne_nil _ hrecords
    obtain ⟨hmem, hkey⟩ := List.mem_filter.mp hrecord
    rw [rowsOf, hafter, hcursor]
    exact exists_lastGreatest hunique hstored ⟨record, hmem, of_decide_eq_true hkey⟩
  · rw [hafter]
    exact filter_upsert_others fun row => Iff.rfl
  · exact hafterUnique
  · obtain ⟨last, hlast⟩ := exists_writeAll after h
    have hsame := hagain batches rfl last hlast
    rw [hsame] at hlast
    exact hlast
  · exact hagain

end Writes

section Example

/-- Incremental writes of an `id` and a `label`, which is the cursor. -/
def labelWriter : Writer 2 := ⟨.incremental 1, [0]⟩

theorem labelWriter_keyed : labelWriter.Keyed := .inr ⟨1, rfl⟩

/-- A record below the stored cursor and one above it, in two batches. -/
theorem keyed_writes_labels : ∃ after, Written (fun _ _ => .ok ()) labelWriter
    {Redshift.labelled 20} [[Redshift.labelled 10], [Redshift.labelled 30]] after :=
  ⟨_, keyed_writes (fun _ _ => .ok ()) labelWriter labelWriter_keyed {Redshift.labelled 20}
    (by decide +kernel) [[Redshift.labelled 10], [Redshift.labelled 30]] _ rfl⟩

end Example

end Dander.Postgresql
