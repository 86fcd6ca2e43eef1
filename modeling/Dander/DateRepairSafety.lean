import Dander.BigqueryDateRepair
import Dander.Execution

/-!
# What a date repair leaves

The assertions give that the keys of the selected rows on either side are present, are unique and
are not those of rows that are not selected on the other side. So the rows that are inserted have
keys of their own among the rows that are kept.
-/
namespace Dander.Bigquery

open Concurrency Fence TransactionScript

section Rows

variable {V : Type} {repair : GraphTargetRepair} {window : GraphRepairWindow}

/-- The row lies in the window. -/
def inside (repair : GraphTargetRepair) (window : GraphRepairWindow) (row : TableRow V) : Bool :=
  ThreeValued.holds (selected repair window row)

def rowsInside (repair : GraphTargetRepair) (window : GraphRepairWindow) (table : Relation V) : ℕ :=
  (table.rows.filter fun row => inside repair window row).card

def project (columns : List String) (row : TableRow V) : List (Option (Value V)) :=
  columns.map row

/-- The table after a repair: outside of the window as before, inside as staged. No selection of
rows with unique keys loses them. -/
structure Replaced (columns : List String) (repair : GraphTargetRepair)
    (window : GraphRepairWindow) (staged table table' : Relation V) : Prop where
  columns_eq : table'.columns = table.columns
  outside : table'.rows.filter (fun row => ¬ inside repair window row = true) =
    table.rows.filter (fun row => ¬ inside repair window row = true)
  inside : (table'.rows.filter fun row => inside repair window row).map (project columns) =
    (staged.rows.filter fun row => inside repair window row).map (project columns)
  unique : ∀ p : TableRow V → Bool,
    ((table.rows.filter fun row => p row).map (keyOf repair.businessKey)).Nodup →
      ((table'.rows.filter fun row => p row).map (keyOf repair.businessKey)).Nodup

theorem Replaced.trans {columns : List String} {staged table table' table'' : Relation V}
    (h : Replaced columns repair window staged table table')
    (h' : Replaced columns repair window staged table' table'') :
    Replaced columns repair window staged table table'' where
  columns_eq := h'.columns_eq.trans h.columns_eq
  outside := h'.outside.trans h.outside
  inside := h'.inside
  unique := fun p hp => h'.unique p (h.unique p hp)

theorem inside_congr {row row' : TableRow V}
    (h : row repair.partitionField = row' repair.partitionField) :
    inside repair window row = inside repair window row' := by
  simp [inside, selected, h]

theorem insertedRow_of_mem {columns : List String} {column : String} (default row : TableRow V)
    (h : column ∈ columns) : insertedRow columns default row column = row column := by
  simp [insertedRow, h]

theorem keyOf_insertedRow {columns key : List String} (hkey : ∀ column ∈ key, column ∈ columns)
    (default row : TableRow V) : keyOf key (insertedRow columns default row) = keyOf key row := by
  apply List.map_congr_left
  intro column hcolumn
  exact insertedRow_of_mem default row (hkey column hcolumn)

theorem project_insertedRow (columns : List String) (default row : TableRow V) :
    project columns (insertedRow columns default row) = project columns row :=
  keyOf_insertedRow (fun _ h => h) default row

theorem invalid_congr {key : List String} {row row' : TableRow V} (h : keyOf key row = keyOf key row') :
    invalid key row = invalid key row' := by
  induction key with
  | nil => rfl
  | cons column rest ih =>
    simp only [keyOf, List.map_cons, List.cons.injEq] at h
    simp only [invalid, List.any_cons, h.1]
    rw [show rest.any (fun column => (row column).isNone) =
      rest.any (fun column => (row' column).isNone) from ih h.2]

/-- Two rows are joined when the keys are equal and present. -/
theorem joined_holds [DecidableEq V] {key : List String} {s t : TableRow V} :
    ThreeValued.holds (joined key s t) = true ↔ invalid key s = false ∧ keyOf key s = keyOf key t := by
  rw [ThreeValued.holds_iff, joined, ThreeValued.all_eq_true]
  induction key with
  | nil => simp [invalid, keyOf]
  | cons column rest ih =>
    simp only [List.map_cons, List.forall_mem_cons, ih, ThreeValued.equal_eq_true, invalid, keyOf,
      List.any_cons, Bool.or_eq_false_iff, List.cons.injEq]
    cases s column <;> simp
    tauto

theorem holds_notSelected {row row' : TableRow V} :
    ThreeValued.holds (ThreeValued.conjunction (selected repair window row)
      (notSelected repair window row')) = true ↔
      inside repair window row = true ∧ inside repair window row' = false := by
  rw [ThreeValued.holds_iff, ThreeValued.conjunction_eq_true, notSelected,
    ThreeValued.negation_getD, inside, inside, ThreeValued.holds_iff]
  apply and_congr_right
  intro _
  rw [← Bool.not_eq_true, ThreeValued.holds_iff]

/-- The rows that a repair keeps and inserts. -/
def repaired (columns : List String) (repair : GraphTargetRepair) (window : GraphRepairWindow)
    (staged table : Relation V) : Relation V :=
  { table with
    rows := table.rows.filter (fun row => ¬ inside repair window row = true) +
      (staged.rows.filter fun row => inside repair window row).map
        (insertedRow columns table.default) }

/-- What the assertions give of the staged rows. -/
structure Separate (repair : GraphTargetRepair) (window : GraphRepairWindow)
    (staged table : Relation V) : Prop where
  unique : ((staged.rows.filter fun row => inside repair window row).map
    (keyOf repair.businessKey)).Nodup
  apart : ∀ s ∈ staged.rows, inside repair window s = true → ∀ t ∈ table.rows,
    inside repair window t = false → keyOf repair.businessKey s ≠ keyOf repair.businessKey t

variable {columns : List String} {staged table : Relation V}

theorem inside_insertedRow (hpartition : repair.partitionField ∈ columns)
    (default row : TableRow V) : inside repair window (insertedRow columns default row) =
      inside repair window row :=
  inside_congr (insertedRow_of_mem default row hpartition)

theorem filter_outside_repaired (hpartition : repair.partitionField ∈ columns) :
    (repaired columns repair window staged table).rows.filter
        (fun row => ¬ inside repair window row = true) =
      table.rows.filter (fun row => ¬ inside repair window row = true) := by
  have hnone : ((staged.rows.filter fun row => inside repair window row).map
      (insertedRow columns table.default)).filter
        (fun row => ¬ inside repair window row = true) = 0 := by
    rw [Multiset.filter_eq_nil]
    intro row hrow
    obtain ⟨s, hs, rfl⟩ := Multiset.mem_map.mp hrow
    simpa [inside_insertedRow hpartition] using (Multiset.mem_filter.mp hs).2
  simp only [repaired, Multiset.filter_add, hnone, Multiset.add_zero, Multiset.filter_filter,
    and_self]

theorem filter_inside_repaired (hpartition : repair.partitionField ∈ columns) :
    (repaired columns repair window staged table).rows.filter
        (fun row => inside repair window row) =
      (staged.rows.filter fun row => inside repair window row).map
        (insertedRow columns table.default) := by
  have hnone : (table.rows.filter (fun row => ¬ inside repair window row = true)).filter
      (fun row => inside repair window row = true) = 0 := by
    rw [Multiset.filter_filter, Multiset.filter_eq_nil]
    rintro row - ⟨hin, hout⟩
    exact hout hin
  have hall : ((staged.rows.filter fun row => inside repair window row).map
      (insertedRow columns table.default)).filter (fun row => inside repair window row = true) =
      (staged.rows.filter fun row => inside repair window row).map
        (insertedRow columns table.default) := by
    rw [Multiset.filter_eq_self]
    intro row hrow
    obtain ⟨s, hs, rfl⟩ := Multiset.mem_map.mp hrow
    simpa [inside_insertedRow hpartition] using (Multiset.mem_filter.mp hs).2
  simp only [repaired, Multiset.filter_add, hnone, hall, Multiset.zero_add]

theorem replaced_repaired (hpartition : repair.partitionField ∈ columns)
    (hkey : ∀ column ∈ repair.businessKey, column ∈ columns)
    (h : Separate repair window staged table) :
    Replaced columns repair window staged table
      (repaired columns repair window staged table) where
  columns_eq := rfl
  outside := filter_outside_repaired hpartition
  inside := by
    rw [filter_inside_repaired hpartition, Multiset.map_map]
    apply Multiset.map_congr rfl
    intro row _
    exact project_insertedRow columns table.default row
  unique := by
    intro p hp
    simp only [repaired, Multiset.filter_add, Multiset.map_add, Multiset.nodup_add]
    have hkept : (table.rows.filter (fun row => ¬ inside repair window row = true)).filter
        (fun row => p row = true) ≤ table.rows.filter (fun row => p row = true) :=
      Multiset.filter_le_filter _ (Multiset.filter_le _ _)
    have hkeys : ((staged.rows.filter fun row => inside repair window row).map
        (insertedRow columns table.default)).map (keyOf repair.businessKey) =
        (staged.rows.filter fun row => inside repair window row).map
          (keyOf repair.businessKey) := by
      rw [Multiset.map_map]
      apply Multiset.map_congr rfl
      intro row _
      exact keyOf_insertedRow hkey table.default row
    have hinserted := Multiset.map_le_map (f := keyOf repair.businessKey)
      (Multiset.filter_le (fun row => p row = true)
        ((staged.rows.filter fun row => inside repair window row).map
          (insertedRow columns table.default)))
    refine ⟨Multiset.nodup_of_le (Multiset.map_le_map hkept) hp,
      Multiset.nodup_of_le (hkeys ▸ hinserted) h.unique, ?_⟩
    rw [Multiset.disjoint_left]
    intro key hkept hin
    have hstaged := Multiset.mem_of_le hinserted hin
    rw [hkeys] at hstaged
    obtain ⟨t, ht, rfl⟩ := Multiset.mem_map.mp hkept
    obtain ⟨s, hs, hsame⟩ := Multiset.mem_map.mp hstaged
    rw [Multiset.mem_filter, Multiset.mem_filter] at ht
    rw [Multiset.mem_filter] at hs
    exact h.apart s hs.1 hs.2 t ht.1.1 (Bool.eq_false_of_not_eq_true ht.1.2) hsame

end Rows

section Planning

variable {upper : String → String} {node : Node} {repair : GraphTargetRepair}

/-- The repair of a target names declared fields. -/
structure Declared (columns : List String) (repair : GraphTargetRepair) : Prop where
  partition : repair.partitionField ∈ columns
  key : ∀ column ∈ repair.businessKey, column ∈ columns

theorem mem_of_fieldType {fields : List NodeField} {name type : String}
    (h : fieldType upper fields name = some type) : name ∈ fields.map NodeField.name := by
  obtain ⟨field, hfound, -⟩ := Option.map_eq_some_iff.mp h
  have hmem := List.mem_reverse.mp (List.mem_of_find?_eq_some hfound)
  have hname := List.find?_some hfound
  rw [decide_eq_true_eq] at hname
  exact List.mem_map.mpr ⟨field, hmem, hname⟩

theorem partitionTypeOf_eq_some {type : Option String} {partitionType : PartitionType}
    (h : partitionTypeOf type = some partitionType) : ∃ text, type = some text := by
  cases type with
  | none => cases h
  | some text => exact ⟨text, rfl⟩

theorem planTarget_eq_ok (h : planTarget upper node = .ok repair) :
    repair.nodeId = node.id ∧ Declared (node.fields.map NodeField.name) repair := by
  unfold planTarget at h
  cases hwriter : node.writer with
  | none =>
    rw [hwriter] at h
    cases h
  | some writer =>
    simp only [hwriter] at h
    obtain ⟨-, h⟩ := Execution.guard_eq_ok h
    cases hpartition : writer.partitionField with
    | none =>
      rw [hpartition] at h
      cases h
    | some partition =>
      simp only [hpartition] at h
      cases htype : partitionTypeOf (fieldType upper node.fields partition) with
      | none =>
        rw [htype] at h
        cases h
      | some partitionType =>
        simp only [htype] at h
        obtain ⟨hguard, h⟩ := Execution.guard_eq_ok h
        cases h
        obtain ⟨text, htext⟩ := partitionTypeOf_eq_some htype
        refine ⟨rfl, mem_of_fieldType htext, ?_⟩
        intro key hkey
        simp only [Bool.or_eq_true, not_or, List.any_eq_true, not_exists, not_and] at hguard
        have hdeclared := hguard.2 key hkey
        cases hkeyType : fieldType upper node.fields key with
        | none => simp [hkeyType] at hdeclared
        | some type => exact mem_of_fieldType hkeyType

theorem planned_of_mem {nodes : List Node} {targets : List GraphTargetRepair}
    (h : planGraphRepair upper nodes = .ok targets) (hmem : repair ∈ targets) :
    ∃ node ∈ nodes, node.isTarget = true ∧ node.id = repair.nodeId ∧
      Declared (node.fields.map NodeField.name) repair := by
  obtain ⟨planned, hplanned, h⟩ := Execution.bind_eq_ok h
  obtain ⟨-, h⟩ := Execution.guard_eq_ok h
  cases h
  obtain ⟨node, hnode, hplan⟩ := Execution.exists_of_mem_mapM hplanned hmem
  obtain ⟨hid, hdeclared⟩ := planTarget_eq_ok hplan
  obtain ⟨hnode, htarget⟩ := List.mem_filter.mp hnode
  exact ⟨node, hnode, htarget, hid.symm, hdeclared⟩

end Planning

section Script

variable {V : Type}

theorem Warehouse.read_eq_ok {warehouse : Warehouse V} {relation : String} {columns : List String}
    {table : Relation V} :
    warehouse.read relation columns = .ok table ↔
      warehouse.tables relation = some table ∧ ∀ column ∈ columns, column ∈ table.columns := by
  unfold read
  cases htable : warehouse.tables relation with
  | none => simp
  | some stored =>
    by_cases hcolumns : columns.all (fun column => decide (column ∈ stored.columns)) = true
    · simp only [if_pos hcolumns, Except.ok.injEq, Option.some.injEq]
      constructor
      · rintro rfl
        exact ⟨rfl, by simpa using hcolumns⟩
      · exact fun h => h.1
    · simp only [if_neg hcolumns, Option.some.injEq]
      constructor
      · rintro ⟨⟩
      · rintro ⟨rfl, hmem⟩
        exact absurd (by simpa using hmem) hcolumns

@[simp] theorem Warehouse.write_tables (warehouse : Warehouse V) (relation : String)
    (table : Relation V) : (warehouse.write relation table).tables =
      Function.update warehouse.tables relation (some table) := rfl

theorem Warehouse.write_write (warehouse : Warehouse V) (relation : String)
    (table table' : Relation V) :
    (warehouse.write relation table).write relation table' = warehouse.write relation table' := by
  simp [write]

variable [DecidableEq V] {targetId stagingId : String} {columns : List String}
  {repair : GraphTargetRepair} {window : GraphRepairWindow} {fence : FencingToken}
  {warehouse : Warehouse V}

/-- All assertions of the script hold: the run has its lease, and the keys are sound. -/
structure Passes (targetId stagingId : String) (repair : GraphTargetRepair)
    (window : GraphRepairWindow) (fence : FencingToken) (warehouse : Warehouse V) : Prop where
  lease : touches fence warehouse.leases = true
  validated : ∀ condition ∈ (validations targetId stagingId repair window).map Prod.fst,
    condition warehouse = .ok true

omit [DecidableEq V] in
theorem keysPresent_eq_ok {relation : String} :
    keysPresent repair window relation warehouse = .ok true ↔
      ∃ table, warehouse.read relation (repairColumns repair) = .ok table ∧
        ∀ s ∈ table.rows, inside repair window s = true → invalid repair.businessKey s = false := by
  unfold keysPresent
  cases warehouse.read relation (repairColumns repair) with
  | error error => simp [bind, Except.bind]
  | ok table => simp [bind, Except.bind, pure, Except.pure, inside]

theorem keysUnique_eq_ok {relation : String} :
    keysUnique repair window relation warehouse = .ok true ↔
      ∃ table, warehouse.read relation (repairColumns repair) = .ok table ∧
        ((table.rows.filter fun row => inside repair window row).map
          (keyOf repair.businessKey)).Nodup := by
  unfold keysUnique
  cases warehouse.read relation (repairColumns repair) with
  | error error => simp [bind, Except.bind]
  | ok table => simp [bind, Except.bind, pure, Except.pure, inside]

theorem keysStay_eq_ok {relation other : String} :
    keysStay repair window relation other warehouse = .ok true ↔
      ∃ table table', warehouse.read relation (repairColumns repair) = .ok table ∧
        warehouse.read other (repairColumns repair) = .ok table' ∧
        ∀ s ∈ table.rows, ∀ t ∈ table'.rows,
          ThreeValued.holds (joined repair.businessKey s t) = true →
            inside repair window s = true → inside repair window t = true := by
  unfold keysStay
  cases warehouse.read relation (repairColumns repair) with
  | error error => simp [bind, Except.bind]
  | ok table =>
    cases warehouse.read other (repairColumns repair) with
    | error error => simp [bind, Except.bind]
    | ok table' =>
      simp only [bind, Except.bind, pure, Except.pure, Except.ok.injEq, decide_eq_true_eq,
        Bool.and_eq_true, holds_notSelected, not_and, Bool.not_eq_false]
      simp

/-- What the assertions say of the two tables. -/
theorem Passes.separate (h : Passes targetId stagingId repair window fence warehouse) :
    ∃ staged table, warehouse.tables stagingId = some staged ∧
      warehouse.tables targetId = some table ∧ Separate repair window staged table := by
  obtain ⟨staged, hstaged, hpresent⟩ := keysPresent_eq_ok.mp
    (h.validated (keysPresent repair window stagingId) (by simp [validations]))
  obtain ⟨staged', hstaged', hunique⟩ := keysUnique_eq_ok.mp
    (h.validated (keysUnique repair window stagingId) (by simp [validations]))
  obtain ⟨staged'', table, hstaged'', htable, hstay⟩ := keysStay_eq_ok.mp
    (h.validated (keysStay repair window stagingId targetId) (by simp [validations]))
  rw [hstaged, Except.ok.injEq] at hstaged' hstaged''
  subst hstaged' hstaged''
  refine ⟨staged, table, (Warehouse.read_eq_ok.mp hstaged).1, (Warehouse.read_eq_ok.mp htable).1,
    hunique, ?_⟩
  intro s hs hin t ht hout hsame
  have hjoined := joined_holds.mpr ⟨hpresent s hs hin, hsame⟩
  rw [hstay s hs t ht hjoined hin] at hout
  cases hout

/-- The tables before and after a repair that was committed. -/
structure Committed (targetId stagingId : String) (columns : List String)
    (repair : GraphTargetRepair) (window : GraphRepairWindow) (warehouse warehouse' : Warehouse V)
    (staged table table' : Relation V) : Prop where
  staging : warehouse.tables stagingId = some staged
  target : warehouse.tables targetId = some table
  written : warehouse' = warehouse.write targetId table'
  replaced : Replaced columns repair window staged table table'

/-- The validations change nothing, and go through when all conditions hold. -/
theorem block_validations {warehouse' : Warehouse V} {locals locals' : RepairVariables} :
    block ((validations (V := V) targetId stagingId repair window).map
        fun a => assert (fun warehouse (_ : RepairVariables) => a.1 warehouse) a.2)
        warehouse locals = .ok (warehouse', locals') ↔
      (∀ condition ∈ (validations targetId stagingId repair window).map Prod.fst,
        condition warehouse = .ok true) ∧ warehouse' = warehouse ∧ locals' = locals := by
  have hpairs : (validations (V := V) targetId stagingId repair window).map
      (fun a => assert (fun warehouse (_ : RepairVariables) => a.1 warehouse) a.2) =
      ((validations targetId stagingId repair window).map fun a =>
        ((fun warehouse (_ : RepairVariables) => a.1 warehouse), a.2)).map
          fun a => assert a.1 a.2 := by
    rw [List.map_map]
    rfl
  rw [hpairs, block_asserts, List.forall_mem_map, List.forall_mem_map]

theorem repairDml_eq_ok {warehouse' : Warehouse V} {locals locals' : RepairVariables}
    (hne : stagingId ≠ targetId)
    (h : block (repairDml targetId stagingId columns repair window) warehouse locals =
      .ok (warehouse', locals')) :
    (∀ condition ∈ (validations targetId stagingId repair window).map Prod.fst,
      condition warehouse = .ok true) ∧
    ∃ staged table,
      warehouse.read stagingId (repair.partitionField :: columns) = .ok staged ∧
      warehouse.read targetId columns = .ok table ∧
      warehouse' = warehouse.write targetId (repaired columns repair window staged table) ∧
      locals'.inserted = rowsInside repair window staged := by
  rw [repairDml, block_append_eq_ok] at h
  obtain ⟨checked, locals₁, hchecked, h⟩ := h
  obtain ⟨hvalid, rfl, rfl⟩ := block_validations.mp hchecked
  obtain ⟨deleted, locals₂, hdelete, h⟩ := block_cons_eq_ok.mp h
  obtain ⟨deleted', locals₃, hset, h⟩ := block_cons_eq_ok.mp h
  obtain ⟨inserted, locals₄, hinsert, h⟩ := block_cons_eq_ok.mp h
  obtain ⟨inserted', locals₅, hset', h⟩ := block_cons_eq_ok.mp h
  simp only [assign, Except.ok.injEq, Prod.mk.injEq] at hset hset'
  obtain ⟨rfl, rfl⟩ := hset
  obtain ⟨rfl, rfl⟩ := hset'
  simp only [block, Except.ok.injEq, Prod.mk.injEq] at h
  obtain ⟨rfl, rfl⟩ := h
  obtain ⟨table, htable, hdelete⟩ := Execution.bind_eq_ok hdelete
  obtain ⟨staged, hstaged, hinsert⟩ := Execution.bind_eq_ok hinsert
  obtain ⟨kept, hkept, hinsert⟩ := Execution.bind_eq_ok hinsert
  cases hdelete
  cases hinsert
  rw [Warehouse.read_eq_ok, Warehouse.write_tables, Function.update_of_ne hne,
    ← Warehouse.read_eq_ok] at hstaged
  obtain ⟨hkept, hcolumns⟩ := Warehouse.read_eq_ok.mp hkept
  rw [Warehouse.write_tables, Function.update_self, Option.some.injEq] at hkept
  subst hkept
  have htarget := Warehouse.read_eq_ok.mpr ⟨(Warehouse.read_eq_ok.mp htable).1, hcolumns⟩
  refine ⟨hvalid, staged, table, hstaged, htarget, ?_, rfl⟩
  rw [Warehouse.write_write]
  rfl

/-- A body that went through had its lease, its assertions held, and it replaced the rows. -/
theorem fencedBody_reads {warehouse' : Warehouse V} {locals locals' : RepairVariables}
    (hne : stagingId ≠ targetId)
    (h : block (fencedBody targetId stagingId columns repair window fence) warehouse locals =
      .ok (warehouse', locals')) :
    Passes targetId stagingId repair window fence warehouse ∧ ∃ staged table,
      warehouse.read stagingId (repair.partitionField :: columns) = .ok staged ∧
      warehouse.read targetId columns = .ok table ∧
      warehouse' = warehouse.write targetId (repaired columns repair window staged table) ∧
      locals'.inserted = rowsInside repair window staged := by
  obtain ⟨touched, locals₁, htouch, h⟩ := block_cons_eq_ok.mp h
  obtain ⟨fenced, locals₂, hfenced, h⟩ := block_cons_eq_ok.mp h
  simp only [touchLease, Except.ok.injEq, Prod.mk.injEq] at htouch
  obtain ⟨rfl, rfl⟩ := htouch
  obtain ⟨hlease, rfl, rfl⟩ := assert_eq_ok.mp hfenced
  obtain ⟨hvalid, hreplaced⟩ := repairDml_eq_ok hne h
  refine ⟨⟨?_, hvalid⟩, hreplaced⟩
  by_cases htouches : touches fence fenced.leases = true
  · exact htouches
  · simp [htouches] at hlease

theorem fencedBody_eq_ok {warehouse' : Warehouse V} {locals locals' : RepairVariables}
    (hdeclared : Declared columns repair) (hne : stagingId ≠ targetId)
    (h : block (fencedBody targetId stagingId columns repair window fence) warehouse locals =
      .ok (warehouse', locals')) :
    Passes targetId stagingId repair window fence warehouse ∧
      ∃ staged table table',
        Committed targetId stagingId columns repair window warehouse warehouse' staged table
          table' ∧
        locals'.inserted = rowsInside repair window staged := by
  obtain ⟨hpasses, staged, table, hstaged, htable, rfl, hinserted⟩ := fencedBody_reads hne h
  have hstaged := (Warehouse.read_eq_ok.mp hstaged).1
  have htable := (Warehouse.read_eq_ok.mp htable).1
  obtain ⟨staged', table', hstaged', htable', hseparate⟩ := hpasses.separate
  rw [hstaged, Option.some.injEq] at hstaged'
  rw [htable, Option.some.injEq] at htable'
  subst hstaged' htable'
  exact ⟨hpasses, staged, table, repaired columns repair window staged table,
    ⟨hstaged, htable, rfl, replaced_repaired hdeclared.partition hdeclared.key hseparate⟩,
    hinserted⟩

omit [DecidableEq V] in
theorem Committed.staging_written {warehouse' : Warehouse V} {staged table table' : Relation V}
    (hne : stagingId ≠ targetId)
    (h : Committed targetId stagingId columns repair window warehouse warehouse' staged table
      table') : warehouse'.tables stagingId = some staged := by
  rw [h.written, Warehouse.write_tables, Function.update_of_ne hne, h.staging]

omit [DecidableEq V] in
theorem Committed.trans {warehouse₁ warehouse₂ : Warehouse V}
    {staged staged' table table₁ table₁' table₂ : Relation V} (hne : stagingId ≠ targetId)
    (h : Committed targetId stagingId columns repair window warehouse warehouse₁ staged table
      table₁)
    (h' : Committed targetId stagingId columns repair window warehouse₁ warehouse₂ staged' table₁'
      table₂) :
    Committed targetId stagingId columns repair window warehouse warehouse₂ staged table
      table₂ := by
  have hstaging := h'.staging
  have htarget := h'.target
  rw [h.staging_written hne, Option.some.injEq] at hstaging
  rw [h.written, Warehouse.write_tables, Function.update_self, Option.some.injEq] at htarget
  subst hstaging htarget
  refine ⟨h.staging, h.target, ?_, h.replaced.trans h'.replaced⟩
  rw [h'.written, h.written, Warehouse.write_write]

/-- One run of the script: it is rolled back, or all assertions hold and it is committed. -/
theorem execute_repairScript (hdeclared : Declared columns repair) (hne : stagingId ≠ targetId)
    (interrupt : Option (ℕ × RepairError)) (locals : RepairVariables) :
    (execute interrupt (repairScript targetId stagingId columns repair window fence)
        ⟨warehouse, none, locals⟩).RolledBack warehouse ∨
      Passes targetId stagingId repair window fence warehouse ∧ ∃ staged table table',
        Committed targetId stagingId columns repair window warehouse
          (execute interrupt (repairScript targetId stagingId columns repair window fence)
            ⟨warehouse, none, locals⟩).stored staged table table' ∧
        ∀ result, (execute interrupt (repairScript targetId stagingId columns repair window fence)
            ⟨warehouse, none, locals⟩).result = .ok result →
          ∃ affected, result.counts =
            some (rowsInside repair window staged, affected) := by
  obtain hback | ⟨locals₁, working, locals₂, hbefore, hbody, hstored, hafter⟩ :=
    execute_transaction
      [assign fun _ locals => { locals with deleted := 0 },
        assign fun _ locals => { locals with inserted := 0 }]
      (fencedBody targetId stagingId columns repair window fence)
      [assign fun _ locals => { locals with
        counts := some (locals.inserted, locals.deleted + locals.inserted) }]
      (by simp [keepsDatabase_assign]) (by simp [keepsDatabase_assign]) interrupt warehouse locals
  · exact .inl hback
  · obtain ⟨hpasses, staged, table, table', hcommitted, hinserted⟩ :=
      fencedBody_eq_ok hdeclared hne hbody
    refine .inr ⟨hpasses, staged, table, table', ?_, ?_⟩
    · rw [repairScript, hstored]
      exact hcommitted
    · intro result hresult
      have hlast := hafter result hresult
      simp only [block, assign, Except.ok.injEq, Prod.mk.injEq, true_and] at hlast
      subst hlast
      exact ⟨_, by rw [hinserted]⟩

/-- A result of the script, or of its repetitions: nothing happened, or the repair did. -/
def Settled (targetId stagingId : String) (columns : List String) (repair : GraphTargetRepair)
    (window : GraphRepairWindow) (fence : FencingToken) (warehouse : Warehouse V)
    (out : Warehouse V × Except RepairError (ℕ × ℕ)) : Prop :=
  (out.1 = warehouse ∧ ∃ error, out.2 = .error error) ∨
    Passes targetId stagingId repair window fence warehouse ∧ ∃ staged table table',
      Committed targetId stagingId columns repair window warehouse out.1 staged table table' ∧
      ∀ counts, out.2 = .ok counts →
        counts.1 = rowsInside repair window staged

theorem settled_execute (hdeclared : Declared columns repair) (hne : stagingId ≠ targetId)
    (interrupt : Option (ℕ × RepairError)) (warehouse : Warehouse V) (locals : RepairVariables) :
    Settled targetId stagingId columns repair window fence warehouse
      ((execute interrupt (repairScript targetId stagingId columns repair window fence)
          ⟨warehouse, none, locals⟩).stored,
        repairResult (execute interrupt
          (repairScript targetId stagingId columns repair window fence)
            ⟨warehouse, none, locals⟩)) := by
  have hrun := @execute_repairScript V _ targetId stagingId columns repair window fence warehouse
    hdeclared hne interrupt locals
  obtain ⟨hstored, error, herror⟩ | ⟨hpasses, staged, table, table', hcommitted, hcounts⟩ := hrun
  · refine .inl ⟨hstored, scriptError error, ?_⟩
    simp [repairResult, herror]
  · refine .inr ⟨hpasses, staged, table, table', hcommitted, ?_⟩
    intro counts h
    unfold repairResult at h
    cases hresult : (execute interrupt (repairScript targetId stagingId columns repair window fence)
        ⟨warehouse, none, locals⟩).result with
    | error error =>
      rw [hresult] at h
      cases h
    | ok result =>
      obtain ⟨affected, haffected⟩ := hcounts result hresult
      simp only [hresult, haffected, Except.ok.injEq] at h
      subst h
      rfl

/-- An attempt that is repeated has left the tables as the next one is to find them. -/
theorem Settled.trans (hne : stagingId ≠ targetId) {error : RepairError} {between : Warehouse V}
    {out : Warehouse V × Except RepairError (ℕ × ℕ)}
    (h : Settled targetId stagingId columns repair window fence warehouse (between, .error error))
    (h' : Settled targetId stagingId columns repair window fence between out) :
    Settled targetId stagingId columns repair window fence warehouse out := by
  obtain ⟨rfl, -⟩ | ⟨hpasses, staged, table, table₁, hcommitted, -⟩ := h
  · exact h'
  · obtain ⟨rfl, error, herror⟩ | ⟨-, staged', table₁', table₂, hcommitted', hcounts⟩ := h'
    · refine .inr ⟨hpasses, staged, table, table₁, hcommitted, ?_⟩
      intro counts hok
      rw [herror] at hok
      cases hok
    · refine .inr ⟨hpasses, staged, table, table₂, hcommitted.trans hne hcommitted', ?_⟩
      have hsame := hcommitted'.staging
      rw [hcommitted.staging_written hne, Option.some.injEq] at hsame
      subst hsame
      exact hcounts

theorem settled_runMutationWithRetry (hdeclared : Declared columns repair)
    (hne : stagingId ≠ targetId) (interrupt : ℕ → Option (ℕ × RepairError)) (attempt more : ℕ)
    (warehouse : Warehouse V) :
    Settled targetId stagingId columns repair window fence warehouse
      (runMutationWithRetry interrupt
        (repairScript targetId stagingId columns repair window fence) attempt more warehouse) := by
  induction more generalizing attempt warehouse with
  | zero =>
    have hone : Settled targetId stagingId columns repair window fence warehouse _ :=
      settled_execute hdeclared hne (interrupt attempt) warehouse .start
    exact hone
  | succ more ih =>
    have hone : Settled targetId stagingId columns repair window fence warehouse _ :=
      settled_execute hdeclared hne (interrupt attempt) warehouse .start
    by_cases hretry : repairResult (execute (interrupt attempt)
        (repairScript targetId stagingId columns repair window fence)
          ⟨warehouse, none, .start⟩) = .error .concurrentUpdate
    · rw [hretry] at hone
      simp only [runMutationWithRetry, hretry]
      exact hone.trans hne (ih _ _)
    · rw [runMutationWithRetry]
      split
      · next hresult => exact absurd hresult hretry
      · exact hone

omit [DecidableEq V] in
theorem card_sub_kept (repair : GraphTargetRepair) (window : GraphRepairWindow)
    (table : Relation V) :
    table.rows.card -
        (table.rows.filter fun row => ¬ ThreeValued.holds (selected repair window row) = true).card =
      rowsInside repair window table := by
  have hsplit := congrArg Multiset.card
    (Multiset.filter_add_not (fun row => inside repair window row = true) table.rows)
  rw [Multiset.card_add] at hsplit
  have hnot : (table.rows.filter fun row =>
      ¬ ThreeValued.holds (selected repair window row) = true).card =
      (table.rows.filter fun row => ¬ inside repair window row = true).card := rfl
  rw [hnot, rowsInside]
  omega

theorem repairDml_of_valid {staged table : Relation V} {locals : RepairVariables}
    (hne : stagingId ≠ targetId)
    (hvalid : ∀ condition ∈ (validations targetId stagingId repair window).map Prod.fst,
      condition warehouse = .ok true)
    (hstaged : warehouse.read stagingId (repair.partitionField :: columns) = .ok staged)
    (htable : warehouse.read targetId (repair.partitionField :: columns) = .ok table) :
    block (repairDml targetId stagingId columns repair window) warehouse locals =
      .ok (warehouse.write targetId (repaired columns repair window staged table),
        ⟨rowsInside repair window staged, rowsInside repair window table,
          rowsInside repair window staged, locals.counts⟩) := by
  obtain ⟨hstored, hcolumns⟩ := Warehouse.read_eq_ok.mp hstaged
  obtain ⟨htarget, htargetColumns⟩ := Warehouse.read_eq_ok.mp htable
  have hpartition : warehouse.read targetId [repair.partitionField] = .ok table :=
    Warehouse.read_eq_ok.mpr ⟨htarget, by simpa using htargetColumns _ (by simp)⟩
  let kept : Relation V := { table with
    rows := table.rows.filter fun t => ¬ ThreeValued.holds (selected repair window t) = true }
  have hread : (warehouse.write targetId kept).read stagingId
      (repair.partitionField :: columns) = .ok staged := by
    rw [Warehouse.read_eq_ok, Warehouse.write_tables, Function.update_of_ne hne]
    exact ⟨hstored, hcolumns⟩
  have hkept : (warehouse.write targetId kept).read targetId columns = .ok kept := by
    rw [Warehouse.read_eq_ok, Warehouse.write_tables, Function.update_self]
    exact ⟨rfl, fun column hcolumn => htargetColumns column (List.mem_cons_of_mem _ hcolumn)⟩
  have hdelete : deleteSelected targetId repair window warehouse locals =
      .ok (warehouse.write targetId kept,
        { locals with rowCount := rowsInside repair window table }) := by
    simp only [deleteSelected, hpartition, bind, Except.bind, pure, Except.pure, card_sub_kept,
      kept]
  have hinsert : insertSelected targetId stagingId columns repair window
      (warehouse.write targetId kept)
      ⟨rowsInside repair window table, rowsInside repair window table, locals.inserted,
        locals.counts⟩ =
      .ok (warehouse.write targetId (repaired columns repair window staged table),
        ⟨rowsInside repair window staged, rowsInside repair window table, locals.inserted,
          locals.counts⟩) := by
    simp only [insertSelected, hread, hkept, bind, Except.bind, pure, Except.pure,
      Warehouse.write_write]
    rfl
  rw [repairDml, block_append_eq_ok]
  refine ⟨warehouse, locals, block_validations.mpr ⟨hvalid, rfl, rfl⟩, ?_⟩
  simp only [block, hdelete, assign, hinsert]

/-- When the assertions hold and the columns are there, the script commits. -/
theorem execute_repairScript_of_passes {staged table : Relation V} (hne : stagingId ≠ targetId)
    (hpasses : Passes targetId stagingId repair window fence warehouse)
    (hstaged : warehouse.read stagingId (repair.partitionField :: columns) = .ok staged)
    (htable : warehouse.read targetId (repair.partitionField :: columns) = .ok table) :
    ∃ locals, execute none (repairScript targetId stagingId columns repair window fence)
        ⟨warehouse, none, .start⟩ =
      ⟨warehouse.write targetId (repaired columns repair window staged table), .ok locals⟩ ∧
      locals.counts = some (rowsInside repair window staged,
        rowsInside repair window table + rowsInside repair window staged) := by
  have hdml : block (repairDml targetId stagingId columns repair window) warehouse
      ⟨1, 0, 0, none⟩ = _ := repairDml_of_valid hne hpasses.validated hstaged htable
  have htouch : touchLease fence warehouse .start = .ok (warehouse, ⟨1, 0, 0, none⟩) := by
    simp [touchLease, hpasses.lease, RepairVariables.start]
  have hbody : block (fencedBody targetId stagingId columns repair window fence) warehouse
      .start = .ok (warehouse.write targetId (repaired columns repair window staged table),
        ⟨rowsInside repair window staged, rowsInside repair window table,
          rowsInside repair window staged, none⟩) := by
    rw [fencedBody, block_cons_eq_ok]
    refine ⟨warehouse, ⟨1, 0, 0, none⟩, htouch, ?_⟩
    rw [block_cons_eq_ok]
    exact ⟨warehouse, ⟨1, 0, 0, none⟩, assert_eq_ok.mpr ⟨by simp, rfl, rfl⟩, hdml⟩
  exact ⟨_, execute_transaction_of_ok rfl hbody rfl, rfl⟩

end Script

section Materialize

variable {V : Type} [DecidableEq V]

theorem stagingRef_ne {target staging : RelationRef} {uuid : String}
    (h : stagingRef target uuid = .ok staging) : staging.targetId ≠ target.targetId := by
  unfold stagingRef at h
  dsimp only at h
  split at h
  · rw [Except.ok.injEq] at h
    intro hsame
    have hcoordinates := RelationRef.coordinates_inj hsame
    simp only [RelationRef.coordinates, List.cons.injEq, and_true] at hcoordinates
    have hname : staging.name = "_dander_stage_" ++ target.name ++ "_" ++ uuid := by
      rw [← h]
    have hlength := congrArg String.length (hname.symm.trans hcoordinates.2.2)
    simp only [String.length_append] at hlength
    have hprefix : "_dander_stage_".length = 14 := by decide
    omega
  · cases h

/-- Nothing happens in a call but its own statements. -/
def Faults.none : Faults := ⟨fun _ => .ok (), fun _ => .none, .ok ()⟩

variable (target : RelationRef) (uuid : String) (columns : List String)
  (repair : GraphTargetRepair) (window : GraphRepairWindow) (fence : FencingToken)
  (query : (String → Option (Relation V)) → Except RepairError (Relation V))
  (warehouse : Warehouse V)

/-- The assertions hold of the staged and the target table. -/
def AssertsPass (staging : RelationRef) (staged : Relation V) : Prop :=
  Passes target.targetId staging.targetId repair window fence
    (warehouse.write staging.targetId staged)

/-- The target is as before, and the call raises. -/
def Kept (out : Warehouse V × Except RepairError (ℕ × ℕ)) : Prop :=
  out.1.tables target.targetId = warehouse.tables target.targetId ∧
    ∃ error, out.2 = .error error

/-- The assertions held, and the target has been replaced within the window. -/
def Repaired (out : Warehouse V × Except RepairError (ℕ × ℕ)) : Prop :=
  ∃ staging staged table table', stagingRef target uuid = .ok staging ∧
    query warehouse.tables = .ok staged ∧
    AssertsPass target repair window fence warehouse staging staged ∧
    warehouse.tables target.targetId = some table ∧
    out.1.tables target.targetId = some table' ∧
    Replaced columns repair window staged table table' ∧
    ∀ counts, out.2 = .ok counts → counts.1 = rowsInside repair window staged

theorem publishRepair_spec (hdeclared : Declared columns repair) (faults : Faults)
    {staging : RelationRef} (hstaging : stagingRef target uuid = .ok staging) :
    (∀ relation, relation ≠ target.targetId → relation ≠ staging.targetId →
        (publishRepair faults target.targetId staging.targetId columns repair window fence query
          warehouse).1.tables relation = warehouse.tables relation) ∧
      (Kept target warehouse (publishRepair faults target.targetId staging.targetId columns repair
          window fence query warehouse) ∨
        Repaired target uuid columns repair window fence query warehouse
          (publishRepair faults target.targetId staging.targetId columns repair window fence query
            warehouse)) := by
  have hne := stagingRef_ne hstaging
  unfold publishRepair
  cases faults.verify 0 with
  | error error => exact ⟨fun _ _ _ => rfl, .inl ⟨rfl, error, rfl⟩⟩
  | ok _ =>
    cases hquery : query warehouse.tables with
    | error error => exact ⟨fun _ _ _ => rfl, .inl ⟨rfl, error, rfl⟩⟩
    | ok staged =>
      by_cases hexists : (warehouse.tables staging.targetId).isSome = true
      · simp only [if_pos hexists]
        exact ⟨by simp, .inl ⟨rfl, _, rfl⟩⟩
      · simp only [if_neg hexists]
        have hcreated : ∀ relation, relation ≠ staging.targetId →
            (warehouse.write staging.targetId staged).tables relation =
              warehouse.tables relation := fun relation h => by
          rw [Warehouse.write_tables, Function.update_of_ne h]
        cases faults.verify 1 with
        | error error => exact ⟨fun _ _ h => hcreated _ h, .inl ⟨hcreated _ hne.symm, _, rfl⟩⟩
        | ok _ =>
          by_cases hlease : fence.leaseTable.isNone = true
          · simp only [if_pos hlease]
            exact ⟨fun _ _ h => hcreated _ h, .inl ⟨hcreated _ hne.symm, _, rfl⟩⟩
          · simp only [if_neg hlease]
            have hsettled : Settled target.targetId staging.targetId columns repair window fence
                (warehouse.write staging.targetId staged) _ :=
              settled_runMutationWithRetry hdeclared hne faults.interrupt 0 4
                (warehouse.write staging.targetId staged)
            obtain ⟨hsame, herror⟩ |
              ⟨hpasses, staged', table, table', hcommitted, hcounts⟩ := hsettled
            · refine ⟨?_, .inl ⟨?_, herror⟩⟩
              · intro relation _ h
                rw [hsame, hcreated _ h]
              · rw [hsame, hcreated _ hne.symm]
            · have hstaged := hcommitted.staging
              rw [Warehouse.write_tables, Function.update_self, Option.some.injEq] at hstaged
              subst hstaged
              refine ⟨?_, .inr ⟨staging, staged, table, table', hstaging, hquery, hpasses, ?_, ?_,
                hcommitted.replaced, hcounts⟩⟩
              · intro relation htarget h
                rw [hcommitted.written, Warehouse.write_tables, Function.update_of_ne htarget,
                  hcreated _ h]
              · rw [← hcommitted.target, hcreated _ hne.symm]
              · rw [hcommitted.written, Warehouse.write_tables, Function.update_self]

/-- A call of `_materialize` for a repair keeps the target or replaces its rows in the window. -/
theorem materialize_spec (hdeclared : Declared columns repair) (faults : Faults) :
    Kept target warehouse
        (materialize faults target uuid columns repair window fence query warehouse) ∨
      Repaired target uuid columns repair window fence query warehouse
        (materialize faults target uuid columns repair window fence query warehouse) := by
  unfold materialize
  cases hstaging : stagingRef target uuid with
  | error error => exact .inl ⟨rfl, error, rfl⟩
  | ok staging =>
    have hne := stagingRef_ne hstaging
    have hout := (publishRepair_spec target uuid columns repair window fence query warehouse hdeclared
      faults hstaging).2
    dsimp only
    cases faults.deleteTable with
    | error error =>
      obtain ⟨hsame, -⟩ | ⟨staging', staged, table, table', hs, hq, hp, ht, ht', hr, -⟩ := hout
      · exact .inl ⟨hsame, error, rfl⟩
      · refine .inr ⟨staging', staged, table, table', hs, hq, hp, ht, ht', hr, ?_⟩
        rintro counts ⟨⟩
    | ok _ =>
      have hkeep : ∀ left : Warehouse V,
          (Function.update left.tables staging.targetId none) target.targetId =
            left.tables target.targetId := fun left => Function.update_of_ne hne.symm _ _
      obtain ⟨hsame, herror⟩ | ⟨staging', staged, table, table', hs, hq, hp, ht, ht', hr, hc⟩ :=
        hout
      · exact .inl ⟨(hkeep _).trans hsame, herror⟩
      · exact .inr ⟨staging', staged, table, table', hs, hq, hp, ht, (hkeep _).trans ht', hr, hc⟩

/-- The columns of an insert are there, in the staged table and in the target. -/
def ColumnsThere (columns : List String) (staged table : Relation V) : Prop :=
  ∀ column ∈ columns, column ∈ staged.columns ∧ column ∈ table.columns

/-- When the assertions hold and nothing else intervenes, the repair is done and counted. -/
theorem materialize_of_pass (hdeclared : Declared columns repair) {staging : RelationRef}
    {staged table : Relation V} (hstaging : stagingRef target uuid = .ok staging)
    (hquery : query warehouse.tables = .ok staged)
    (hnew : warehouse.tables staging.targetId = none)
    (htable : warehouse.tables target.targetId = some table)
    (hcolumns : ColumnsThere columns staged table) (hlease : fence.leaseTable.isSome = true)
    (hpass : AssertsPass target repair window fence warehouse staging staged) :
    (materialize .none target uuid columns repair window fence query warehouse).1.tables
        target.targetId = some (repaired columns repair window staged table) ∧
      (materialize .none target uuid columns repair window fence query warehouse).2 =
        .ok (rowsInside repair window staged,
          rowsInside repair window table + rowsInside repair window staged) := by
  have hne := stagingRef_ne hstaging
  have hthere : ∀ column ∈ repair.partitionField :: columns,
      column ∈ staged.columns ∧ column ∈ table.columns := by
    intro column hcolumn
    rcases List.mem_cons.mp hcolumn with rfl | hcolumn
    · exact hcolumns _ hdeclared.partition
    · exact hcolumns _ hcolumn
  obtain ⟨locals, hrun, hcounts⟩ := execute_repairScript_of_passes hne hpass
    (Warehouse.read_eq_ok.mpr ⟨by simp, fun column h => (hthere column h).1⟩)
    (Warehouse.read_eq_ok.mpr ⟨by simpa [Function.update_of_ne hne.symm] using htable,
      fun column h => (hthere column h).2⟩)
  have hresult : repairResult (execute none (repairScript target.targetId staging.targetId columns
      repair window fence) ⟨warehouse.write staging.targetId staged, none, .start⟩) =
        .ok (rowsInside repair window staged,
          rowsInside repair window table + rowsInside repair window staged) := by
    simp [repairResult, hrun, hcounts]
  have hpublish : publishRepair .none target.targetId staging.targetId columns repair window fence
      query warehouse = ((warehouse.write staging.targetId staged).write target.targetId
        (repaired columns repair window staged table),
        .ok (rowsInside repair window staged,
          rowsInside repair window table + rowsInside repair window staged)) := by
    have hsome : fence.leaseTable.isNone = false := by simpa using hlease
    simp only [publishRepair, Faults.none, hquery, hnew, hsome, Option.isSome_none,
      Bool.false_eq_true, if_false, runMutationWithRetry, hresult]
    rw [hrun]
  rw [materialize, hstaging]
  simp only [hpublish]
  refine ⟨?_, rfl⟩
  simp only [Faults.none]
  rw [Function.update_of_ne hne.symm, Warehouse.write_tables, Function.update_self]

/-- The name of a staging table and the rows staged in it are those of the call. -/
theorem Repaired.pass {out : Warehouse V × Except RepairError (ℕ × ℕ)} {staging : RelationRef}
    {staged : Relation V}
    (h : Repaired target uuid columns repair window fence query warehouse out)
    (hstaging : stagingRef target uuid = .ok staging) (hquery : query warehouse.tables = .ok staged) :
    AssertsPass target repair window fence warehouse staging staged := by
  obtain ⟨staging', staged', -, -, hstaging', hquery', hpass, -⟩ := h
  rw [hstaging, Except.ok.injEq] at hstaging'
  rw [hquery, Except.ok.injEq] at hquery'
  subst hstaging' hquery'
  exact hpass

/-- A planned repair of a target, whatever happens during it: the target is kept, or the assertions
hold and its rows are replaced within the window. It is kept when an assertion fails, and replaced
when all hold and the script is not stopped for another reason. -/
theorem date_repair_replaces_window (upper : String → String) (nodes : List Node)
    (targets : List GraphTargetRepair) (repair : GraphTargetRepair)
    (hplan : planGraphRepair upper nodes = .ok targets) (hrepair : repair ∈ targets) :
    ∃ node ∈ nodes, node.id = repair.nodeId ∧
      ∀ (window : GraphRepairWindow) (target : RelationRef) (uuid : String) (fence : FencingToken)
        (query : (String → Option (Relation V)) → Except RepairError (Relation V))
        (warehouse : Warehouse V),
        let columns := node.fields.map NodeField.name
        let run := fun faults =>
          materialize faults target uuid columns repair window fence query warehouse
        (∀ faults, Kept target warehouse (run faults) ∨
          Repaired target uuid columns repair window fence query warehouse (run faults)) ∧
        (∀ faults staging staged, stagingRef target uuid = .ok staging →
          query warehouse.tables = .ok staged →
          ¬ AssertsPass target repair window fence warehouse staging staged →
          Kept target warehouse (run faults)) ∧
        (∀ staging staged table, stagingRef target uuid = .ok staging →
          query warehouse.tables = .ok staged → warehouse.tables staging.targetId = none →
          warehouse.tables target.targetId = some table → ColumnsThere columns staged table →
          fence.leaseTable.isSome = true →
          AssertsPass target repair window fence warehouse staging staged →
          (∃ table', (run .none).1.tables target.targetId = some table' ∧
            Replaced columns repair window staged table table') ∧
          (run .none).2 = .ok (rowsInside repair window staged,
            rowsInside repair window table + rowsInside repair window staged)) := by
  obtain ⟨node, hnode, -, hid, hdeclared⟩ := planned_of_mem hplan hrepair
  refine ⟨node, hnode, hid, ?_⟩
  intro window target uuid fence query warehouse
  refine ⟨?_, ?_, ?_⟩
  · intro faults
    exact materialize_spec target uuid _ repair window fence query warehouse hdeclared faults
  · intro faults staging staged hstaging hquery hfail
    obtain hkept | hrepaired := materialize_spec target uuid _ repair window fence query warehouse
      hdeclared faults
    · exact hkept
    · exact absurd (Repaired.pass _ _ _ _ _ _ _ _ hrepaired hstaging hquery) hfail
  · intro staging staged table hstaging hquery hnew htable hcolumns hlease hpass
    obtain ⟨hafter, hcounts⟩ := materialize_of_pass target uuid _ repair window fence query warehouse
      hdeclared hstaging hquery hnew htable hcolumns hlease hpass
    obtain ⟨staged', table', hstaged', htable', hseparate⟩ := Passes.separate hpass
    rw [Warehouse.write_tables, Function.update_self, Option.some.injEq] at hstaged'
    rw [Warehouse.write_tables, Function.update_of_ne (stagingRef_ne hstaging).symm, htable,
      Option.some.injEq] at htable'
    subst hstaged' htable'
    exact ⟨⟨_, hafter, replaced_repaired hdeclared.partition hdeclared.key hseparate⟩, hcounts⟩

end Materialize

section Events

/-- The output of a pipeline that writes events by their day. -/
def eventsNode : Node :=
  ⟨"target", true, [⟨"id", "INT64", none⟩, ⟨"event_date", "DATE", none⟩, ⟨"value", "STRING", none⟩],
    some ⟨true, some "event_date", ["id"]⟩⟩

def eventsRepair : GraphTargetRepair := ⟨"target", "event_date", .date, ["id"]⟩

def eventRow (id : ℕ) (day : ℤ) : TableRow ℕ := fun column =>
  if column = "id" then some (.scalar id)
  else if column = "event_date" then some (.date day)
  else none

def eventsTable (rows : Multiset (TableRow ℕ)) : Relation ℕ :=
  ⟨eventsNode.fields.map NodeField.name, fun _ => none, rows⟩

def eventsWindow : GraphRepairWindow := ⟨5, 6, by decide⟩

def eventsFence : FencingToken := ⟨some "control.leases", "events", "run-1", 1, none, 0⟩

def eventsTarget : RelationRef := ⟨"p", "reports", "events", by decide, by decide, by decide⟩

def eventsStaging : RelationRef :=
  ⟨"p", "reports", "_dander_stage_events_a", by decide, by decide, by decide⟩

/-- An event of the day and one of another day. -/
def eventsStored : Warehouse ℕ where
  tables relation :=
    if relation = eventsTarget.targetId then some (eventsTable {eventRow 3 5, eventRow 2 9})
    else none
  leases := ⟨0, fun _ => [⟨some "run-1", 1, none, 10⟩]⟩

def eventsMaterialized : Warehouse ℕ × Except RepairError (ℕ × ℕ) :=
  materialize .none eventsTarget "a" (eventsNode.fields.map NodeField.name) eventsRepair
    eventsWindow eventsFence (fun _ => .ok (eventsTable {eventRow 1 5, eventRow 2 9})) eventsStored

theorem date_repair_replaces_window_events :
    Kept eventsTarget eventsStored eventsMaterialized ∨
      Repaired eventsTarget "a" (eventsNode.fields.map NodeField.name) eventsRepair eventsWindow
        eventsFence (fun _ => .ok (eventsTable {eventRow 1 5, eventRow 2 9})) eventsStored
        eventsMaterialized := by
  obtain ⟨node, hnode, -, h⟩ := date_repair_replaces_window (V := ℕ) id [eventsNode]
    [eventsRepair] eventsRepair rfl (by simp)
  obtain rfl := List.mem_singleton.mp hnode
  exact (h eventsWindow eventsTarget "a" eventsFence
    (fun _ => .ok (eventsTable {eventRow 1 5, eventRow 2 9})) eventsStored).1 .none

end Events

end Dander.Bigquery
