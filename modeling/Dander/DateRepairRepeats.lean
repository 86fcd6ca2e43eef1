import Dander.DateRepairSafety

/-!
# Repeating a date repair

A repair that has been committed leaves a target from which the same staged rows
make the same target again. Its assertions compare the staged rows of the window
with the rows of the target only: a key that staged rows on both sides of the
window bear passes the first time, and is refused the second.
-/
namespace Dander.Bigquery

open Concurrency Fence TransactionScript

section Rows

variable {V : Type} {repair : GraphTargetRepair} {window : GraphRepairWindow}
  {columns : List String} {staged table : Relation V}

/-- No staged row of the window has the key of a staged row outside of it. -/
def OneSided (repair : GraphTargetRepair) (window : GraphRepairWindow) (staged : Relation V) :
    Prop :=
  ∀ s ∈ staged.rows, inside repair window s = true → ∀ t ∈ staged.rows,
    inside repair window t = false → keyOf repair.businessKey s ≠ keyOf repair.businessKey t

theorem mem_repaired {row : TableRow V} :
    row ∈ (repaired columns repair window staged table).rows ↔
      (row ∈ table.rows ∧ inside repair window row = false) ∨
        ∃ s ∈ staged.rows, inside repair window s = true ∧
          row = insertedRow columns table.default s := by
  simp only [repaired, Multiset.mem_add, Multiset.mem_filter, Multiset.mem_map, Bool.not_eq_true]
  constructor
  · rintro (h | ⟨s, ⟨hs, hin⟩, rfl⟩)
    · exact .inl h
    · exact .inr ⟨s, hs, hin, rfl⟩
  · rintro (h | ⟨s, hs, hin, rfl⟩)
    · exact .inl h
    · exact .inr ⟨s, ⟨hs, hin⟩, rfl⟩

/-- The rows that a repair replaces with themselves. -/
theorem repaired_repaired (hpartition : repair.partitionField ∈ columns) :
    repaired columns repair window staged (repaired columns repair window staged table) =
      repaired columns repair window staged table := by
  have hrows := @filter_outside_repaired V repair window columns staged table hpartition
  simp only [repaired] at hrows ⊢
  rw [hrows]

end Rows

section Script

variable {V : Type} [DecidableEq V] {targetId stagingId : String} {columns : List String}
  {repair : GraphTargetRepair} {window : GraphRepairWindow} {fence : FencingToken}
  {warehouse : Warehouse V}

/-- A script that succeeded had its assertions hold, and stored the repaired target. -/
theorem execute_repairScript_ok (hne : stagingId ≠ targetId)
    {interrupt : Option (ℕ × RepairError)} {result : RepairVariables}
    (h : (execute interrupt (repairScript targetId stagingId columns repair window fence)
      ⟨warehouse, none, .start⟩).result = .ok result) :
    Passes targetId stagingId repair window fence warehouse ∧ ∃ staged table,
      warehouse.read stagingId (repair.partitionField :: columns) = .ok staged ∧
      warehouse.read targetId columns = .ok table ∧
      (execute interrupt (repairScript targetId stagingId columns repair window fence)
          ⟨warehouse, none, .start⟩).stored =
        warehouse.write targetId (repaired columns repair window staged table) := by
  obtain ⟨_, error, herror⟩ | ⟨locals₁, working, locals₂, hbefore, hbody, hstored, _⟩ :=
    execute_transaction
      [assign fun _ locals => { locals with deleted := 0 },
        assign fun _ locals => { locals with inserted := 0 }]
      (fencedBody targetId stagingId columns repair window fence)
      [assign fun _ locals => { locals with
        counts := some (locals.inserted, locals.deleted + locals.inserted) }]
      (by simp [keepsDatabase_assign]) (by simp [keepsDatabase_assign]) interrupt warehouse .start
  · rw [repairScript] at h
    rw [h] at herror
    cases herror
  · obtain ⟨hpasses, staged, table, hstaged, htable, hworking, _⟩ := fencedBody_reads hne hbody
    exact ⟨hpasses, staged, table, hstaged, htable, hstored.trans hworking⟩

variable {stagingId' : String} {fence' : FencingToken} {again : Warehouse V}
  {staged table : Relation V}

/-- The keys of the staged rows of the window are present and unique. -/
theorem Passes.keys_of_staged (h : Passes targetId stagingId repair window fence warehouse)
    (hstaged : warehouse.tables stagingId = some staged) :
    (∀ s ∈ staged.rows, inside repair window s = true → invalid repair.businessKey s = false) ∧
      ((staged.rows.filter fun row => inside repair window row).map
        (keyOf repair.businessKey)).Nodup := by
  obtain ⟨staged₁, hread₁, hpresent⟩ := keysPresent_eq_ok.mp
    (h.validated (keysPresent repair window stagingId) (by simp [validations]))
  obtain ⟨staged₂, hread₂, hunique⟩ := keysUnique_eq_ok.mp
    (h.validated (keysUnique repair window stagingId) (by simp [validations]))
  have hone := (Warehouse.read_eq_ok.mp hread₁).1
  have htwo := (Warehouse.read_eq_ok.mp hread₂).1
  rw [hstaged, Option.some.injEq] at hone htwo
  subst hone htwo
  exact ⟨hpresent, hunique⟩

/-- The assertions on a repaired target: they hold but for the staged rows that bear a key on
both sides of the window. -/
theorem passes_again (hdeclared : Declared columns repair)
    (hpasses : Passes targetId stagingId repair window fence warehouse)
    (hstaged : warehouse.tables stagingId = some staged)
    (htable : warehouse.tables targetId = some table)
    (hread : again.read stagingId' (repairColumns repair) = .ok staged)
    (hrepaired : again.read targetId (repairColumns repair) =
      .ok (repaired columns repair window staged table))
    (hlease : touches fence' again.leases = true) :
    Passes targetId stagingId' repair window fence' again ↔ OneSided repair window staged := by
  obtain ⟨hpresent, hunique⟩ := hpasses.keys_of_staged hstaged
  obtain ⟨staged', table', hstaged', htable', hseparate⟩ := hpasses.separate
  rw [hstaged, Option.some.injEq] at hstaged'
  rw [htable, Option.some.injEq] at htable'
  subst hstaged' htable'
  have hkey := fun row => @keyOf_insertedRow V columns repair.businessKey hdeclared.key
    table.default row
  have hinside := fun row => @inside_insertedRow V repair window columns hdeclared.partition
    table.default row
  constructor
  · intro h s hs hin t ht hout hsame
    obtain ⟨table₁, staged₁, htable₁, hstaged₁, hstay⟩ := keysStay_eq_ok.mp
      (h.validated (keysStay repair window targetId stagingId') (by simp [validations]))
    rw [hrepaired, Except.ok.injEq] at htable₁
    rw [hread, Except.ok.injEq] at hstaged₁
    subst htable₁ hstaged₁
    have hmem := (@mem_repaired V repair window columns staged table _).mpr
      (.inr ⟨s, hs, hin, rfl⟩)
    have hjoined : ThreeValued.holds (joined repair.businessKey
        (insertedRow columns table.default s) t) = true := by
      rw [joined_holds, invalid_congr (hkey s), hkey s]
      exact ⟨hpresent s hs hin, hsame⟩
    rw [hstay _ hmem t ht hjoined (by rw [hinside, hin])] at hout
    cases hout
  · intro hone
    refine ⟨hlease, ?_⟩
    have hstagedPresent : keysPresent repair window stagingId' again = .ok true :=
      keysPresent_eq_ok.mpr ⟨staged, hread, hpresent⟩
    have hstagedUnique : keysUnique repair window stagingId' again = .ok true :=
      keysUnique_eq_ok.mpr ⟨staged, hread, hunique⟩
    have htargetPresent : keysPresent repair window targetId again = .ok true := by
      refine keysPresent_eq_ok.mpr ⟨_, hrepaired, ?_⟩
      intro row hrow hin
      obtain ⟨_, hout⟩ | ⟨s, hs, hsin, rfl⟩ := mem_repaired.mp hrow
      · rw [hin] at hout
        cases hout
      · rw [invalid_congr (hkey s)]
        exact hpresent s hs hsin
    have htargetUnique : keysUnique repair window targetId again = .ok true := by
      refine keysUnique_eq_ok.mpr ⟨_, hrepaired, ?_⟩
      rw [filter_inside_repaired hdeclared.partition, Multiset.map_map]
      simpa only [Function.comp_def, hkey] using hunique
    have hstagedStay : keysStay repair window stagingId' targetId again = .ok true := by
      refine keysStay_eq_ok.mpr ⟨_, _, hread, hrepaired, ?_⟩
      intro s hs t ht hjoined hin
      obtain ⟨ht, hout⟩ | ⟨s', hs', hin', rfl⟩ := mem_repaired.mp ht
      · exact absurd (joined_holds.mp hjoined).2 (hseparate.apart s hs hin t ht hout)
      · rw [hinside, hin']
    have htargetStay : keysStay repair window targetId stagingId' again = .ok true := by
      refine keysStay_eq_ok.mpr ⟨_, _, hrepaired, hread, ?_⟩
      intro row hrow t ht hjoined hin
      obtain ⟨_, hout⟩ | ⟨s, hs, hsin, rfl⟩ := mem_repaired.mp hrow
      · rw [hin] at hout
        cases hout
      · have hsame := (joined_holds.mp hjoined).2
        rw [hkey s] at hsame
        by_contra hout
        exact hone s hs hsin t ht (Bool.eq_false_of_not_eq_true hout) hsame
    intro condition hcondition
    simp only [validations, List.flatMap_cons, List.flatMap_nil, List.map_cons, List.map_nil,
      List.append_nil, List.cons_append, List.nil_append, List.mem_cons,
      List.not_mem_nil, or_false] at hcondition
    rcases hcondition with rfl | rfl | rfl | rfl | rfl | rfl
    · exact hstagedPresent
    · exact hstagedUnique
    · exact htargetPresent
    · exact htargetUnique
    · exact hstagedStay
    · exact htargetStay

/-- A planned repair that succeeded, repeated on the target it left with the same staged rows and
a lease of its own: it succeeds and leaves the target as it is exactly when no key is borne by
staged rows on both sides of the window. -/
theorem date_repair_repeats_iff (upper : String → String) (nodes : List Node)
    (targets : List GraphTargetRepair) (repair : GraphTargetRepair)
    (hplan : planGraphRepair upper nodes = .ok targets) (hrepair : repair ∈ targets) :
    ∃ node ∈ nodes, node.id = repair.nodeId ∧
      ∀ (window : GraphRepairWindow) (target staging staging' : RelationRef) (uuid uuid' : String)
        (fence fence' : FencingToken) (interrupt : Option (ℕ × RepairError))
        (warehouse again : Warehouse V) (staged : Relation V) (result : RepairVariables),
        let columns := node.fields.map NodeField.name
        let first := execute interrupt
          (repairScript target.targetId staging.targetId columns repair window fence)
          ⟨warehouse, none, .start⟩
        let second := execute none
          (repairScript target.targetId staging'.targetId columns repair window fence')
          ⟨again, none, .start⟩
        stagingRef target uuid = .ok staging → stagingRef target uuid' = .ok staging' →
        first.result = .ok result →
        warehouse.tables staging.targetId = some staged →
        again.tables staging'.targetId = some staged →
        again.tables target.targetId = first.stored.tables target.targetId →
        touches fence' again.leases = true →
        ((∃ result', second.result = .ok result') ∧
            second.stored.tables target.targetId = again.tables target.targetId ↔
          OneSided repair window staged) := by
  obtain ⟨node, hnode, -, hid, hdeclared⟩ := planned_of_mem hplan hrepair
  refine ⟨node, hnode, hid, ?_⟩
  intro window target staging staging' uuid uuid' fence fence' interrupt warehouse again staged
    result columns first second hstaging hstaging' hfirst hstaged hagain htarget hlease
  have hne := stagingRef_ne hstaging
  have hne' := stagingRef_ne hstaging'
  obtain ⟨hpasses, staged₁, table, hread, htable, hstored⟩ := execute_repairScript_ok hne hfirst
  obtain ⟨hsame, hcolumns⟩ := Warehouse.read_eq_ok.mp hread
  obtain ⟨htable, htableColumns⟩ := Warehouse.read_eq_ok.mp htable
  rw [hstaged, Option.some.injEq] at hsame
  subst hsame
  have hstored : again.tables target.targetId =
      some (repaired columns repair window staged table) := by
    rw [htarget, hstored, Warehouse.write_tables, Function.update_self]
  have hthere : ∀ column ∈ repair.partitionField :: columns, column ∈ table.columns := by
    intro column hcolumn
    rcases List.mem_cons.mp hcolumn with rfl | hcolumn
    · exact htableColumns _ hdeclared.partition
    · exact htableColumns _ hcolumn
  have hnamed : ∀ column ∈ repairColumns repair, column ∈ repair.partitionField :: columns := by
    intro column hcolumn
    rcases List.mem_cons.mp hcolumn with rfl | hcolumn
    · simp
    · exact List.mem_cons_of_mem _ (hdeclared.key column hcolumn)
  have hpass := @passes_again V _ target.targetId staging.targetId columns repair window fence
    warehouse staging'.targetId fence' again staged table hdeclared hpasses hstaged htable
    (Warehouse.read_eq_ok.mpr ⟨hagain, fun column h => hcolumns column (hnamed column h)⟩)
    (Warehouse.read_eq_ok.mpr ⟨hstored, fun column h => hthere column (hnamed column h)⟩) hlease
  rw [← hpass]
  constructor
  · rintro ⟨⟨result', hsecond⟩, -⟩
    exact (execute_repairScript_ok hne' hsecond).1
  · intro hpasses'
    obtain ⟨locals, hrun, -⟩ := execute_repairScript_of_passes hne' hpasses'
      (Warehouse.read_eq_ok.mpr ⟨hagain, hcolumns⟩)
      (Warehouse.read_eq_ok.mpr ⟨hstored, hthere⟩)
    refine ⟨⟨locals, by simp only [second, hrun]⟩, ?_⟩
    simp only [second, hrun]
    rw [Warehouse.write_tables, Function.update_self, repaired_repaired hdeclared.partition,
      hstored]

end Script

section Events

/-- The staged rows beside an empty target. -/
def eventsWarehouse (staged : Multiset (TableRow ℕ)) : Warehouse ℕ where
  tables relation :=
    if relation = eventsStaging.targetId then some (eventsTable staged)
    else if relation = eventsTarget.targetId then some (eventsTable 0)
    else none
  leases := ⟨0, fun _ => [⟨some "run-1", 1, none, 10⟩]⟩

def eventsRun (warehouse : Warehouse ℕ) : Outcome (Warehouse ℕ) RepairVariables RepairError :=
  execute none (repairScript eventsTarget.targetId eventsStaging.targetId
    (eventsNode.fields.map NodeField.name) eventsRepair eventsWindow eventsFence)
    ⟨warehouse, none, .start⟩

/-- What a repair of the staged rows leaves. -/
def eventsAfter (staged : Multiset (TableRow ℕ)) : Warehouse ℕ :=
  (eventsRun (eventsWarehouse staged)).stored

/-- Event 1 is staged on two days, one of them in the window: the first repair succeeds, and the
same repair of what it left is refused. -/
theorem repeated_repair_is_refused :
    (∃ result, (eventsRun (eventsWarehouse {eventRow 1 5, eventRow 1 9})).result = .ok result) ∧
      (eventsRun (eventsAfter {eventRow 1 5, eventRow 1 9})).result =
        .error (.statement (.assertion
          "Repair target keys moved outside the selected dates in retained raw data")) :=
  ⟨⟨_, rfl⟩, rfl⟩

/-- Two events on two days: the repair can be repeated. -/
theorem date_repair_repeats_two_events :
    (∃ result, (eventsRun (eventsAfter {eventRow 1 5, eventRow 2 9})).result = .ok result) ∧
      (eventsRun (eventsAfter {eventRow 1 5, eventRow 2 9})).stored.tables
          eventsTarget.targetId =
        (eventsAfter {eventRow 1 5, eventRow 2 9}).tables eventsTarget.targetId ↔
      OneSided eventsRepair eventsWindow (eventsTable {eventRow 1 5, eventRow 2 9}) := by
  obtain ⟨node, hnode, -, h⟩ := date_repair_repeats_iff (V := ℕ) id [eventsNode] [eventsRepair]
    eventsRepair rfl (by simp)
  obtain rfl := List.mem_singleton.mp hnode
  exact h eventsWindow eventsTarget eventsStaging eventsStaging "a" "a" eventsFence eventsFence none
    (eventsWarehouse {eventRow 1 5, eventRow 2 9})
    (eventsAfter {eventRow 1 5, eventRow 2 9})
    (eventsTable {eventRow 1 5, eventRow 2 9}) _ rfl rfl rfl rfl rfl rfl rfl

end Events

end Dander.Bigquery
