import Dander.Execution
import Mathlib

/-!
# Append-only writers

A writer adds rows to a table, none of which is the same as a row of the table or as another
added one. Every batch of a run is then in the table to the end, and its repetition adds nothing.
-/
namespace AppendOnly

section Tables

variable {R : Type} {same : R → R → Prop} {table after : Multiset R} {records : List R}

/-- Rows are added for those of the records that the table does not have. -/
structure Appends (same : R → R → Prop) (table : Multiset R) (records : List R)
    (after : Multiset R) : Prop where
  added : ∃ added : Multiset R, after = table + added ∧
    (∀ row ∈ added, row ∈ records ∧ ∀ old ∈ table, ¬ same old row) ∧
    added.Pairwise fun row other => ¬ same row other
  present : ∀ record ∈ records, ∃ row ∈ after, same row record

theorem Appends.le (h : Appends same table records after) : table ≤ after := by
  obtain ⟨added, rfl, -, -⟩ := h.added
  exact Multiset.le_add_right table added

/-- Records that the table has add nothing. -/
theorem Appends.eq_of_present (h : Appends same table records after)
    (hpresent : ∀ record ∈ records, ∃ row ∈ table, same row record) : after = table := by
  obtain ⟨added, rfl, hadded, -⟩ := h.added
  have hnone : added = 0 := by
    rw [Multiset.eq_zero_iff_forall_notMem]
    intro row hrow
    obtain ⟨hrecord, hnew⟩ := hadded row hrow
    obtain ⟨old, hold, hsame⟩ := hpresent row hrecord
    exact hnew old hold hsame
  rw [hnone, add_zero]

theorem pairwise_of_nodup {rows : Multiset R} (h : rows.Nodup) :
    rows.Pairwise fun row other => ¬ row = other := by
  obtain ⟨list, rfl⟩ := Quot.exists_rep rows
  exact ⟨list, rfl, h⟩

/-- The distinct records that the table does not have are added. -/
theorem appends_dedup [DecidableEq R] (table : Multiset R) (records : List R) :
    Appends (fun row other => row = other) table records
      (table + Multiset.dedup (Multiset.ofList (records.filter fun record =>
        decide (record ∉ table)))) := by
  constructor
  · refine ⟨_, rfl, ?_, pairwise_of_nodup (Multiset.nodup_dedup _)⟩
    intro row hrow
    rw [Multiset.mem_dedup, Multiset.mem_coe, List.mem_filter, decide_eq_true_eq] at hrow
    refine ⟨hrow.1, ?_⟩
    rintro old hold rfl
    exact hrow.2 hold
  · intro record hrecord
    refine ⟨record, ?_, rfl⟩
    by_cases hin : record ∈ table
    · exact Multiset.mem_add.mpr (.inl hin)
    · refine Multiset.mem_add.mpr (.inr ?_)
      rw [Multiset.mem_dedup, Multiset.mem_coe, List.mem_filter, decide_eq_true_eq]
      exact ⟨hrecord, hin⟩

end Tables

section Runs

variable {S B R ε : Type}

/-- A writer of batches. Of a batch it takes only some records in a given state. -/
structure Appender (S B R ε : Type) where
  write : S → B → Except ε S
  rows : S → Multiset R
  taken : S → B → List R

/-- Each write appends the records that it takes, takes no more of any batch afterwards, and goes
through in every state if it does in one. -/
structure Appender.Sound (writer : Appender S B R ε) (same : R → R → Prop) : Prop where
  appends : ∀ state batch next, writer.write state batch = .ok next →
    Appends same (writer.rows state) (writer.taken state batch) (writer.rows next)
  shrinks : ∀ state batch next, writer.write state batch = .ok next →
    ∀ other, writer.taken next other ⊆ writer.taken state other
  total : ∀ state batch next, writer.write state batch = .ok next →
    ∀ other, ∃ last, writer.write other batch = .ok last

variable {writer : Appender S B R ε} {same : R → R → Prop} {start state final : S}
  {batches : List B}

theorem Appender.Sound.run_le (h : writer.Sound same)
    (hrun : batches.foldlM writer.write start = .ok final) :
    writer.rows start ≤ writer.rows final := by
  induction batches generalizing start with
  | nil =>
    obtain rfl := Except.ok.inj hrun
    exact le_rfl
  | cons batch rest ih =>
    rw [List.foldlM_cons] at hrun
    obtain ⟨next, hwrite, hrest⟩ := Execution.bind_eq_ok hrun
    exact (h.appends start batch next hwrite).le.trans (ih hrest)

theorem Appender.Sound.run_shrinks (h : writer.Sound same)
    (hrun : batches.foldlM writer.write start = .ok final) (other : B) :
    writer.taken final other ⊆ writer.taken start other := by
  induction batches generalizing start with
  | nil =>
    obtain rfl := Except.ok.inj hrun
    exact List.Subset.refl _
  | cons batch rest ih =>
    rw [List.foldlM_cons] at hrun
    obtain ⟨next, hwrite, hrest⟩ := Execution.bind_eq_ok hrun
    exact List.Subset.trans (ih hrest) (h.shrinks start batch next hwrite other)

/-- What a batch of a run adds, and that it stays. -/
structure Appender.Added (writer : Appender S B R ε) (same : R → R → Prop) (final : S)
    (state : S) (batch : B) (next : S) : Prop where
  appends : Appends same (writer.rows state) (writer.taken state batch) (writer.rows next)
  stays : ∀ record ∈ writer.taken state batch, ∃ row ∈ writer.rows final, same row record
  repeated : ∃ last, writer.write final batch = .ok last ∧ writer.rows last = writer.rows final
  again : ∀ other last, writer.taken final other ⊆ writer.taken state batch →
    writer.write final other = .ok last → writer.rows last = writer.rows final

/-- In a run no row is changed or removed, and every batch adds the records it takes that are not
there, for good. -/
structure Appender.Run (writer : Appender S B R ε) (same : R → R → Prop) (start : S)
    (batches : List B) (final : S) : Prop where
  kept : writer.rows start ≤ writer.rows final
  step : ∀ before batch later, batches = before ++ batch :: later → ∃ state next,
    before.foldlM writer.write start = .ok state ∧ writer.write state batch = .ok next ∧
      later.foldlM writer.write next = .ok final ∧ writer.Added same final state batch next

theorem Appender.Sound.added (h : writer.Sound same) {batch : B} {next : S} {later : List B}
    (hwrite : writer.write state batch = .ok next)
    (hlater : later.foldlM writer.write next = .ok final) :
    writer.Added same final state batch next := by
  have happends := h.appends state batch next hwrite
  have hle := h.run_le hlater
  have hstays : ∀ record ∈ writer.taken state batch, ∃ row ∈ writer.rows final,
      same row record := by
    intro record hrecord
    obtain ⟨row, hrow, hsame⟩ := happends.present record hrecord
    exact ⟨row, Multiset.mem_of_le hle hrow, hsame⟩
  have hagain : ∀ other last, writer.taken final other ⊆ writer.taken state batch →
      writer.write final other = .ok last → writer.rows last = writer.rows final := by
    intro other last htaken hlast
    refine (h.appends final other last hlast).eq_of_present ?_
    intro record hrecord
    exact hstays record (htaken hrecord)
  refine ⟨happends, hstays, ?_, hagain⟩
  obtain ⟨last, hlast⟩ := h.total state batch next hwrite final
  refine ⟨last, hlast, hagain batch last ?_ hlast⟩
  exact List.Subset.trans (h.run_shrinks hlater batch) (h.shrinks state batch next hwrite batch)

/-- A run of a sound writer is append-only. -/
theorem Appender.Sound.run (h : writer.Sound same)
    (hrun : batches.foldlM writer.write start = .ok final) :
    writer.Run same start batches final := by
  refine ⟨h.run_le hrun, ?_⟩
  rintro before batch later rfl
  rw [List.foldlM_append] at hrun
  obtain ⟨state, hbefore, hrun⟩ := Execution.bind_eq_ok hrun
  rw [List.foldlM_cons] at hrun
  obtain ⟨next, hwrite, hlater⟩ := Execution.bind_eq_ok hrun
  exact ⟨state, next, hbefore, hwrite, hlater, h.added hwrite hlater⟩

end Runs

end AppendOnly
