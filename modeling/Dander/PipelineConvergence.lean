import Dander.PipelineDelivery
import Dander.PostgresqlKeyedWrites

/-!
# Pipelines into PostgreSQL

A run that is repeated hands records over again, also those of writes that were committed before
their answers were lost. Keyed writes take them, so that a completed run leaves each of its records
or a newer one in the table.
-/
namespace Dander.Runtime

open Interleaving KeyedUpsert
open Postgresql (PostgreSQLWriteError Writer)
open Redshift (Row keyOf cursorRank)

variable {n : ℕ} {V : Type} [LinearOrder V]
  (check : ℕ → Row n V → Except PostgreSQLWriteError Unit) (writer : String → Writer n)
  (port : RecordPort (Row n V)) (key : String → Row n V → String) (config : SourceConfig)

structure Loaded (n : ℕ) (V : Type) where
  world : World (Row n V)
  tables : String → Multiset (Row n V)

/-- A write is one transaction: it is committed, even if it raises, or nothing is delivered. -/
def warehouse : Machine (Op (Row n V)) (Reply (Row n V)) (Loaded n V) where
  step o s reply t := (providers key).step o s.world reply t.world ∧
    (t.tables = s.tables ∧ t.world.delivered = s.world.delivered ∨ ∃ endpoint batch after,
      o = .write endpoint batch ∧
        Postgresql.write check (writer endpoint) (s.tables endpoint) batch = .ok after ∧
          t.tables = Function.update s.tables endpoint after)

/-- Runs that may stop anywhere. Between them the source may come to hold whatever it can hold after
what was delivered. -/
inductive Loads : Loaded n V → Prop
  | start (records : String → List (Row n V)) (tables : String → Multiset (Row n V))
      (unique : ∀ name, (keys (keyOf (writer name).businessKey) (tables name)).Nodup) :
      Loads ⟨⟨records, fun _ => none, fun _ => []⟩, tables⟩
  | gain {s : Loaded n V} {w : World (Row n V)} (before : Loads s)
      (gained : Reached port key config w) (same : w.delivered = s.world.delivered) :
      Loads ⟨w, s.tables⟩
  | attempt {s t : Loaded n V} (before : Loads s) (options : RunOptions)
      (out : Option (Except RunError (List EndpointRunResult)))
      (ran : Alone (warehouse check writer key) (run port options config) s out t) : Loads t

variable {check writer port key config} {s t : Loaded n V}

/-- The one row with the key of a record is not older than it. -/
def Holds (writer : Writer n) (table : Multiset (Row n V)) (record : Row n V) : Prop :=
  ∃ k, keyOf writer.businessKey record = some k ∧ ∃ row ∈ table,
    keyOf writer.businessKey row = some k ∧
      cursorRank writer.cursorField record ≤ cursorRank writer.cursorField row

/-- A table with one row for each key, which holds all that was delivered to it. -/
structure Current (writer : Writer n) (table : Multiset (Row n V)) (delivered : List (Row n V)) :
    Prop where
  unique : (keys (keyOf writer.businessKey) table).Nodup
  holds : ∀ record ∈ delivered, Holds writer table record

def AllCurrent (writer : String → Writer n) (s : Loaded n V) : Prop :=
  ∀ name, Current (writer name) (s.tables name) (s.world.delivered name)

/-- A write holds its records, and for what the table held a row that is not older. -/
theorem Current.write {writer : Writer n} {table after : Multiset (Row n V)}
    {delivered batch later : List (Row n V)} (hmode : writer.Keyed)
    (h : Current writer table delivered)
    (hwrite : Postgresql.write check writer table batch = .ok after)
    (hlater : ∀ record ∈ later, record ∈ delivered ∨ record ∈ batch) :
    Current writer after later := by
  obtain ⟨rfl, hchecked⟩ := Postgresql.write_keyed hmode h.unique hwrite
  have hrising : Rising (keyOf writer.businessKey) (cursorRank writer.cursorField) table
      (upsert _ _ table batch) := rising_upsert
  obtain ⟨hunique, hrise⟩ := hrising h.unique
  refine ⟨hunique, fun record hrecord => ?_⟩
  rcases hlater record hrecord with hold | hnew
  · obtain ⟨k, hkey, row, hrow, hrowKey, hle⟩ := h.holds record hold
    obtain ⟨last, hlast, hlastKey, hle'⟩ := hrise row hrow k hrowKey
    exact ⟨k, hkey, last, hlast, hlastKey, hle.trans hle'⟩
  · obtain ⟨k, hkey⟩ := (hchecked record hnew).keyed
    obtain ⟨last, hlast, hle⟩ : ∃ last,
        latest (cursorRank writer.cursorField) (keyOf writer.businessKey) k batch = some last ∧
          cursorRank writer.cursorField record ≤ cursorRank writer.cursorField last :=
      exists_latest hnew hkey
    have hlastKey := (latest_mem hlast).2
    by_cases hout : Outranked (keyOf writer.businessKey) (cursorRank writer.cursorField) table last
    · obtain ⟨old, hold, holdKey, hlt⟩ := (outranked_iff hlastKey).mp hout
      obtain ⟨row, hrow, hrowKey, hle'⟩ := hrise old hold k holdKey
      exact ⟨k, hkey, row, hrow, hrowKey, hle.trans (hlt.le.trans hle')⟩
    · exact ⟨k, hkey, last, mem_overwrite (choice_latest _ _ _)
        (latest_filter_of_mem hlast (decide_eq_true hout)), hlastKey, hle⟩

theorem AllCurrent.step {o : Op (Row n V)} {reply : Reply (Row n V) o}
    (hmode : ∀ name, (writer name).Keyed) (h : AllCurrent writer s)
    (hstep : (warehouse check writer key).step o s reply t) : AllCurrent writer t := by
  intro name
  obtain ⟨hworld, ⟨htables, hdelivered⟩ | ⟨endpoint, batch, after, rfl, hwrite, htables⟩⟩ := hstep
  · rw [htables, hdelivered]
    exact h name
  · have hlater : t.world.delivered name = s.world.delivered name ∨ name = endpoint ∧
        t.world.delivered name = s.world.delivered name ++ batch := by
      cases reply with
      | none => exact .inl (by rw [show t.world = s.world from hworld])
      | some count =>
        rw [show t.world = s.world.deliver endpoint batch from hworld]
        by_cases hname : name = endpoint <;> simp [World.deliver, hname]
    rw [htables]
    by_cases hname : name = endpoint
    · subst hname
      rw [Function.update_self]
      refine (h name).write (hmode name) hwrite fun record hrecord => ?_
      rcases hlater with hsame | ⟨-, hadded⟩
      · exact .inl (hsame ▸ hrecord)
      · exact List.mem_append.mp (hadded ▸ hrecord)
    · rw [Function.update_of_ne hname, hlater.resolve_right (hname ·.1)]
      exact h name

/-- A run that loads the tables is one of the runner, and keeps them current. -/
theorem AllCurrent.alone {α : Type} {p : Action (Row n V) α} {out : Option (Except RunError α)}
    (hmode : ∀ name, (writer name).Keyed) (h : AllCurrent writer s)
    (ran : Alone (warehouse check writer key) p s out t) :
    Alone (providers key) p s.world out t.world ∧ AllCurrent writer t := by
  induction ran with
  | ended s done => exact ⟨.ended _ done, h⟩
  | cut p s => exact ⟨.cut _ _, h⟩
  | perform done rest ih =>
    obtain ⟨hrest, hcurrent⟩ := ih (h.step hmode done)
    exact ⟨.perform done.1 hrest, hcurrent⟩

theorem Loads.reached (hmode : ∀ name, (writer name).Keyed)
    (h : Loads check writer port key config s) :
    Reached port key config s.world ∧ AllCurrent writer s := by
  induction h with
  | start records tables unique => exact ⟨.start records, fun name => ⟨unique name, by simp⟩⟩
  | gain before gained same ih => exact ⟨gained, by rw [AllCurrent, same]; exact ih.2⟩
  | attempt before options out ran ih =>
    obtain ⟨hran, hcurrent⟩ := ih.2.alone hmode ran
    exact ⟨.attempt ih.1 options out hran, hcurrent⟩

/-- Whatever failed before, a run that completes leaves every record its source held when it
started in the table, unless a newer one has taken its place. -/
theorem pipelines_converge (hmode : ∀ name, (writer name).Keyed) {options : RunOptions}
    {results : List EndpointRunResult} (before : Loads check writer port key config s)
    (ran : Alone (warehouse check writer key) (run port options config) s (some (.ok results)) t)
    (endpoint : Endpoint) (hendpoint : endpoint ∈ config.endpoints)
    (selected : options.selects endpoint = true) :
    (keys (keyOf (writer endpoint.name).businessKey) (t.tables endpoint.name)).Nodup ∧
      ∀ r ∈ s.world.records endpoint.name, ∃ index normalized,
        normalizedRecord port endpoint index r = .ok normalized ∧
          Holds (writer endpoint.name) (t.tables endpoint.name) normalized := by
  obtain ⟨hreached, hcurrent⟩ := before.reached hmode
  obtain ⟨hran, hafter⟩ := hcurrent.alone hmode ran
  obtain ⟨-, hle, hpost⟩ := run_ensures.alone hran hreached.covered
  refine ⟨(hafter _).unique, fun r hr => ?_⟩
  rw [← hle.1] at hr
  obtain ⟨index, normalized, hnormalized, hdelivered⟩ :=
    hpost results rfl endpoint hendpoint selected r hr
  exact ⟨index, normalized, hnormalized, (hafter _).holds _ hdelivered⟩

/-- A run that writes one record. -/
theorem pipelines_converge_label :
    ∃ table, Holds Postgresql.labelWriter table (Redshift.labelled 10) := by
  obtain ⟨table, hwrite⟩ : ∃ table, Postgresql.write (fun _ _ => .ok ()) Postgresql.labelWriter 0
    [Redshift.labelled 10] = .ok table := ⟨_, rfl⟩
  let endpoint : Endpoint := ⟨"labels", none, none, false⟩
  let before : World (Row 2 ℕ) := ⟨fun _ => [Redshift.labelled 10], fun _ => none, fun _ => []⟩
  let after : Loaded 2 ℕ :=
    ⟨before.deliver "labels" [Redshift.labelled 10], Function.update (fun _ => 0) "labels" table⟩
  have ran : Alone (warehouse (fun _ _ => .ok ()) (fun _ => Postgresql.labelWriter) fun _ _ => "")
      (run ⟨fun _ _ record => .ok record, fun _ _ => none⟩ plainOptions
        ⟨"shop", [endpoint], by decide⟩) ⟨before, fun _ => 0⟩
      (some (.ok [⟨"labels", 1, 1, none⟩])) after := by
    refine .perform (r := (⟨[Redshift.labelled 10], false⟩ : Extraction (Row 2 ℕ)))
      ⟨⟨rfl, fun _ r hr _ => hr⟩, .inl ⟨rfl, rfl⟩⟩ ?_
    refine .perform (r := true) ⟨rfl, .inl ⟨rfl, rfl⟩⟩ ?_
    refine .perform (r := (some 1 : Option ℕ)) (t := after)
      ⟨by rfl, .inr ⟨_, _, _, rfl, hwrite, rfl⟩⟩ ?_
    refine .perform (r := true) ⟨rfl, .inl ⟨rfl, rfl⟩⟩ ?_
    exact .ended _ (by decide)
  obtain ⟨-, hholds⟩ := pipelines_converge (fun _ => Postgresql.labelWriter_keyed)
    (.start _ _ fun _ => by decide) ran endpoint (by decide) (by decide)
  obtain ⟨index, normalized, hnormalized, hholds⟩ := hholds (Redshift.labelled 10) (by simp)
  obtain rfl := Except.ok.inj hnormalized
  exact ⟨table, hholds⟩

end Dander.Runtime
