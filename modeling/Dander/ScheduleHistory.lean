import Dander.PostgresqlScheduler
import Mathlib.Data.List.Count

/-!
# What schedule histories enqueue

Two facts about the wakeups ever inserted for a trigger. While its specification
stays the same they are exactly the selected minutes between its first and its
stored cursor, whatever the paging, the downtimes and the rollbacks. And while no
specification change finds a cursor ahead of the tick's horizon, cursors only move
forward, so that no minute is enqueued under two plan revisions.
-/
namespace Dander.Schedule

variable {platform : Platform}

section Exactness

/-- The wakeups of the selected minutes in `(first, last]`. -/
def selectedWakeups (item : Prepared) (first last : ℤ) : List ScheduleWakeup :=
  ((minutesBetween first last).filter (item.expression.selects item.zone)).map
    (scheduledWakeup item.spec)

/-- The history of one trigger's inserts. -/
def Database.insertedFor (db : Database) (triggerId : String) : List ScheduleWakeup :=
  db.inserted.filter (fun wakeup => wakeup.triggerId = triggerId)

theorem selectedWakeups_append (item : Prepared) {a b c : ℤ} (hab : a ≤ b) (hbc : b ≤ c) :
    selectedWakeups item a c = selectedWakeups item a b ++ selectedWakeups item b c := by
  simp [selectedWakeups, minutesBetween_append hab hbc]

theorem selectedWakeups_self (item : Prepared) (a : ℤ) : selectedWakeups item a a = [] := by
  simp [selectedWakeups, minutesBetween]

theorem nodup_selectedWakeups (item : Prepared) (a b : ℤ) :
    (selectedWakeups item a b).Nodup := by
  refine List.Nodup.map ?_ ((nodup_minutesBetween a b).filter _)
  intro m m' h
  simpa [scheduledWakeup] using h

theorem mem_selectedWakeups {item : Prepared} {a b : ℤ} {wakeup : ScheduleWakeup} :
    wakeup ∈ selectedWakeups item a b ↔ ∃ m, a < m ∧ m ≤ b ∧
      item.expression.selects item.zone m = true ∧ wakeup = scheduledWakeup item.spec m := by
  simp only [selectedWakeups, List.mem_map, List.mem_filter, mem_minutesBetween]
  constructor
  · rintro ⟨m, ⟨⟨hlo, hhi⟩, hsel⟩, rfl⟩
    exact ⟨m, hlo, hhi, hsel, rfl⟩
  · rintro ⟨m, hlo, hhi, hsel, rfl⟩
    exact ⟨m, ⟨⟨hlo, hhi⟩, hsel⟩, rfl⟩

/-- The ledger of one trigger under one specification: nothing before its cursor row
exists, afterwards the selected minutes from its first cursor to the stored one. -/
structure ExactLedger (item : Prepared) (db : Database) : Prop where
  queued : ∀ wakeup ∈ db.queue.map QueueRow.wakeup, wakeup ∈ db.inserted
  before : db.cursors item.spec.triggerId = none → db.insertedFor item.spec.triggerId = []
  after : ∀ row, db.cursors item.spec.triggerId = some row →
    row.specSha256 = item.specSha256 ∧ ∃ first,
      db.firstCursor item.spec.triggerId = some first ∧ first ≤ row.cursorUtc ∧
      db.insertedFor item.spec.triggerId = selectedWakeups item first row.cursorUtc

/-- Every minute in the ledger of a trigger is at most its cursor. -/
theorem ExactLedger.not_queued {item : Prepared} {db : Database} (ledger : ExactLedger item db)
    {cursor m : ℤ} (hcursor : ∀ row, db.cursors item.spec.triggerId = some row →
      row.cursorUtc ≤ cursor) (hm : cursor < m) :
    scheduledWakeup item.spec m ∉ db.queue.map QueueRow.wakeup := by
  intro hqueued
  have hmem : scheduledWakeup item.spec m ∈ db.insertedFor item.spec.triggerId :=
    List.mem_filter.mpr ⟨ledger.queued _ hqueued, by simp [scheduledWakeup]⟩
  cases hrow : db.cursors item.spec.triggerId with
  | none => simp [ledger.before hrow] at hmem
  | some row =>
    obtain ⟨-, first, -, -, heq⟩ := ledger.after row hrow
    rw [heq, mem_selectedWakeups] at hmem
    obtain ⟨m', -, hle, -, hsame⟩ := hmem
    have hmm : m = m' := by simpa [scheduledWakeup] using hsame
    have hrc := hcursor row hrow
    omega

/-- Rounds of other triggers do not touch the ledger. -/
theorem ExactLedger.frame {item : Prepared} {db db' : Database}
    (ledger : ExactLedger item db) (new : List ScheduleWakeup)
    (cursors : db'.cursors item.spec.triggerId = db.cursors item.spec.triggerId)
    (first : db'.firstCursor item.spec.triggerId = db.firstCursor item.spec.triggerId)
    (inserted : db'.inserted = db.inserted ++ new)
    (queued : ∀ w ∈ db'.queue.map QueueRow.wakeup, w ∈ db.queue.map QueueRow.wakeup ++ new)
    (others : ∀ w ∈ new, w.triggerId ≠ item.spec.triggerId) : ExactLedger item db' := by
  have hsame : db'.insertedFor item.spec.triggerId = db.insertedFor item.spec.triggerId := by
    have hnone : new.filter (fun w => w.triggerId = item.spec.triggerId) = [] := by
      simpa [List.filter_eq_nil_iff] using others
    simp [Database.insertedFor, inserted, hnone]
  refine ⟨?_, ?_, ?_⟩
  · intro w hw
    rw [inserted]
    rcases List.mem_append.mp (queued w hw) with hold | hnew
    · exact List.mem_append_left _ (ledger.queued w hold)
    · exact List.mem_append_right _ hnew
  · rw [cursors, hsame]
    exact ledger.before
  · rw [cursors, hsame, first]
    exact ledger.after

/-- A page of the trigger itself extends the ledger by exactly its selected minutes. -/
theorem ExactLedger.advance {call : EnqueueCall} {item : Prepared} {cursor upto : ℤ}
    {new : List ScheduleWakeup} {db db' : Database} (ledger : ExactLedger item db) (first : ℤ)
    (enabled : item.spec.enabled = true)
    (advanced : Advanced call item cursor upto new db db')
    (hcursor : ∀ row, db.cursors item.spec.triggerId = some row → row.cursorUtc ≤ cursor)
    (hfirst : db.firstCursor item.spec.triggerId = some first) (hle : first ≤ cursor)
    (hledger : db.insertedFor item.spec.triggerId = selectedWakeups item first cursor) :
    ExactLedger item db' := by
  obtain ⟨hforward, hnew⟩ := advanced.complete enabled (fun m hm =>
    ledger.not_queued hcursor (mem_minutesBetween.mp hm).1)
  have hrow : db'.cursors item.spec.triggerId = some ⟨item.specSha256, upto, call.now⟩ := by
    rw [advanced.cursors, Function.update_self]
  have hall : new.filter (fun w => w.triggerId = item.spec.triggerId) =
      selectedWakeups item cursor upto := by
    rw [hnew, List.filter_eq_self.mpr]
    · rfl
    · intro w hw
      obtain ⟨m, -, rfl⟩ := List.mem_map.mp hw
      simp [scheduledWakeup]
  refine ⟨?_, ?_, ?_⟩
  · intro w hw
    rw [advanced.queued] at hw
    rw [advanced.inserted]
    rcases List.mem_append.mp hw with hold | hadded
    · exact List.mem_append_left _ (ledger.queued w hold)
    · exact List.mem_append_right _ hadded
  · intro hnone
    rw [hrow] at hnone
    cases hnone
  · intro row hrow'
    rw [hrow] at hrow'
    obtain rfl := Option.some.inj hrow'
    refine ⟨rfl, first, by rw [advanced.firstCursor, hfirst], by simpa using hle.trans hforward, ?_⟩
    have hsplit : db'.insertedFor item.spec.triggerId =
        db.insertedFor item.spec.triggerId ++ selectedWakeups item cursor upto := by
      rw [Database.insertedFor, advanced.inserted, List.filter_append, hall]
      rfl
    rw [hsplit, hledger, ← selectedWakeups_append item hle hforward]

/-- The ledger after the insert of the trigger's first cursor row. -/
theorem ExactLedger.insertCursor {item : Prepared} {db : Database}
    (ledger : ExactLedger item db) (row : CursorRow) (fresh : db.cursors item.spec.triggerId = none)
    (hsha : row.specSha256 = item.specSha256) :
    ExactLedger item (db.insertCursor item.spec.triggerId row) := by
  refine ⟨ledger.queued, ?_, ?_⟩
  · intro hnone
    simp [Database.insertCursor, Database.setCursor] at hnone
  · intro row' hrow'
    have heq : row = row' := by
      simpa [Database.insertCursor, Database.setCursor] using hrow'
    subst heq
    refine ⟨hsha, row.cursorUtc, by simp [Database.insertCursor], le_refl _, ?_⟩
    rw [selectedWakeups_self]
    exact ledger.before fresh

/-- One round keeps the ledger of a trigger if the round is another trigger's or carries
the trigger's own specification. -/
theorem ExactLedger.round {call : EnqueueCall} {item other : Prepared} {db db' : Database}
    {n : ℕ} (ledger : ExactLedger item db) (enabled : item.spec.enabled = true)
    (hsame : other.spec.triggerId = item.spec.triggerId → other = item)
    (h : enqueueTrigger platform call other db = .ok (n, db')) : ExactLedger item db' := by
  by_cases heq : other.spec.triggerId = item.spec.triggerId
  · obtain rfl := hsame heq
    rcases enqueueTrigger_cases h with ⟨hrow, upto, new, hadv⟩ | ⟨row, hrow, hne, -⟩ |
      ⟨row, hrow, -, upto, new, hadv⟩
    · have hinsert := ledger.insertCursor
        ⟨other.specSha256, call.firstCursor, call.now⟩ hrow rfl
      refine hinsert.advance call.firstCursor enabled hadv ?_ ?_ (le_refl _) ?_
      · intro row' hrow'
        have heq : (⟨other.specSha256, call.firstCursor, call.now⟩ : CursorRow) = row' := by
          simpa [Database.insertCursor, Database.setCursor] using hrow'
        simp [← heq]
      · simp [Database.insertCursor]
      · rw [selectedWakeups_self]
        exact ledger.before hrow
    · exact absurd (ledger.after row hrow).1 hne
    · obtain ⟨-, first, hfirst, hle, hledger⟩ := ledger.after row hrow
      refine ledger.advance first enabled hadv ?_ hfirst hle hledger
      intro row' hrow'
      rw [hrow] at hrow'
      obtain rfl := Option.some.inj hrow'
      exact le_refl _
  · have hne : item.spec.triggerId ≠ other.spec.triggerId := fun h => heq h.symm
    have hframe := enqueueTrigger_frame h hne
    rcases enqueueTrigger_cases h with ⟨-, upto, new, hadv⟩ | ⟨row, -, -, rfl⟩ |
      ⟨row, -, -, upto, new, hadv⟩
    · refine ledger.frame new hframe ?_ hadv.inserted (fun w hw => hadv.queued ▸ hw) ?_
      · rw [hadv.firstCursor]
        exact Function.update_of_ne hne _ _
      · intro w hw
        obtain ⟨m, -, rfl⟩ := List.mem_map.mp (hadv.selected.subset hw)
        exact heq
    · refine ledger.frame [] hframe rfl (by simp [Database.setCursor]) ?_ (by simp)
      simp [Database.setCursor]
    · refine ledger.frame new hframe (by rw [hadv.firstCursor]) hadv.inserted
        (fun w hw => hadv.queued ▸ hw) ?_
      intro w hw
      obtain ⟨m, -, rfl⟩ := List.mem_map.mp (hadv.selected.subset hw)
      exact heq

/-- Every tick that handles the trigger carries this specification of it. -/
def UnchangedSpec (spec : TriggerSpec) (s : System) : SystemEvent → Prop
  | .tick process _ _ _ _ => ∀ scheduler ∈ s.schedulers process,
      ∀ other ∈ scheduler.triggers, other.triggerId = spec.triggerId → other = spec
  | _ => True

instance (spec : TriggerSpec) (s : System) : DecidablePred (UnchangedSpec spec s)
  | .tick process _ _ _ _ => inferInstanceAs (Decidable (∀ scheduler ∈ s.schedulers process,
      ∀ other ∈ scheduler.triggers, other.triggerId = spec.triggerId → other = spec))
  | .start .. | .stop _ | .receive .. | .delete .. => isTrue trivial

theorem ExactLedger.step {item : Prepared} {s : System} {event : SystemEvent}
    (ledger : ExactLedger item s.db) (hitem : prepare platform item.spec = .ok item)
    (enabled : item.spec.enabled = true) (unchanged : UnchangedSpec item.spec s event) :
    ExactLedger item (s.step platform event).db := by
  refine System.step_database (P := ExactLedger item) ?_ ?_ ?_ ledger
  · intro settings call h
    refine h.frame [] rfl rfl (by simp [receive]) ?_ (by simp)
    intro w hw
    rw [receive_wakeups] at hw
    simpa using hw
  · intro receipt now db' h hdelete
    obtain ⟨hqueue, hcursors, hinserted, hfirst⟩ := delete_spec hdelete
    refine h.frame [] (by rw [hcursors]) (by rw [hfirst]) (by simp [hinserted]) ?_
      (by simp)
    intro w hw
    simpa using (hqueue.map QueueRow.wakeup).subset hw
  · rintro process scheduler clock now db' n rfl hscheduler htick h
    refine tickOnce_invariant htick ?_ h
    intro call other mid mid' n hmid _ _ hin hother _ hround
    refine hmid.round enabled ?_ hround
    intro heq
    have hspec : other.spec = item.spec := unchanged scheduler hscheduler other.spec hin heq
    rw [hspec, hitem] at hother
    exact (Except.ok.inj hother).symm

theorem ExactLedger.empty (item : Prepared) : ExactLedger item Database.empty :=
  ⟨by simp [Database.empty], by simp [Database.empty, Database.insertedFor],
    by simp [Database.empty]⟩

/-- After any history in which the specification of an enabled trigger stays the same, the
occurrences ever inserted for it are exactly the minutes after its first cursor, up to and
including the stored cursor, that its expression selects in its zone, each inserted once. -/
theorem inserted_exactly_selected_minutes (spec : TriggerSpec) (text name : String)
    (cron : FiveFieldCron) (zone : ZoneInfo) (events : List SystemEvent)
    (hkind : spec.kind = .schedule) (henabled : spec.enabled = true)
    (hschedule : spec.schedule = some text) (hcron : parseFiveFieldCron text = .ok cron)
    (htimeZone : spec.timeZone = some name)
    (hzone : requireIanaTimeZone platform.zoneInfo name = .ok zone)
    (unchanged : Execution.Meets (System.step platform) (UnchangedSpec spec)
      System.initial events) :
    (∀ row, (System.after platform events).db.cursors spec.triggerId = some row →
      ∃ first, (System.after platform events).db.firstCursor spec.triggerId = some first ∧
        ∀ wakeup : ScheduleWakeup,
          wakeup ∈ (System.after platform events).db.inserted ∧
              wakeup.triggerId = spec.triggerId ↔
            ∃ m, first < m ∧ m ≤ row.cursorUtc ∧ cron.selects zone m = true ∧
              wakeup = ⟨spec.triggerId, spec.planRevision, minuteInstant m⟩) ∧
    ((System.after platform events).db.cursors spec.triggerId = none →
      ∀ wakeup ∈ (System.after platform events).db.inserted,
        wakeup.triggerId ≠ spec.triggerId) ∧
    ∀ wakeup ∈ (System.after platform events).db.inserted,
      wakeup.triggerId = spec.triggerId →
      (System.after platform events).db.inserted.count wakeup = 1 := by
  have hitem : prepare platform spec =
      .ok ⟨spec, cron, zone, platform.sha256 (serializeTriggerSpec spec)⟩ := by
    simp [prepare, hkind, hschedule, htimeZone, hcron, hzone]
  generalize hdef : (⟨spec, cron, zone, platform.sha256 (serializeTriggerSpec spec)⟩ :
    Prepared) = item at hitem
  obtain rfl : item.spec = spec := by rw [← hdef]
  obtain rfl : item.expression = cron := by rw [← hdef]
  obtain rfl : item.zone = zone := by rw [← hdef]
  have ledger : ExactLedger item (System.after platform events).db :=
    Execution.run_invariant (P := fun s : System => ExactLedger item s.db)
      (fun s event h hcond => h.step hitem henabled hcond) (ExactLedger.empty item) unchanged
  have hmem : ∀ wakeup : ScheduleWakeup,
      wakeup ∈ (System.after platform events).db.insertedFor item.spec.triggerId ↔
        wakeup ∈ (System.after platform events).db.inserted ∧
          wakeup.triggerId = item.spec.triggerId := by
    intro wakeup
    simp [Database.insertedFor]
  refine ⟨?_, ?_, ?_⟩
  · intro row hrow
    obtain ⟨-, first, hfirst, -, heq⟩ := ledger.after row hrow
    refine ⟨first, hfirst, ?_⟩
    intro wakeup
    rw [← hmem, heq, mem_selectedWakeups]
    rfl
  · intro hnone wakeup hin htrigger
    have hlisted := (hmem wakeup).mpr ⟨hin, htrigger⟩
    rw [ledger.before hnone] at hlisted
    cases hlisted
  · intro wakeup hin htrigger
    have hlisted := (hmem wakeup).mpr ⟨hin, htrigger⟩
    have hcount : (System.after platform events).db.inserted.count wakeup =
        ((System.after platform events).db.insertedFor item.spec.triggerId).count wakeup :=
      (List.count_filter (by simpa using htrigger)).symm
    rw [hcount]
    cases hrow : (System.after platform events).db.cursors item.spec.triggerId with
    | none =>
      rw [ledger.before hrow] at hlisted
      cases hlisted
    | some row =>
      obtain ⟨-, first, -, -, heq⟩ := ledger.after row hrow
      rw [heq] at hlisted ⊢
      exact List.count_eq_one_of_mem (nodup_selectedWakeups item first row.cursorUtc) hlisted

/-- An injective stand-in for the hash, and a zone database with only UTC. -/
def utcPlatform : Platform where
  sha256 := id
  zoneInfo name := if name = "UTC" then some ⟨"UTC", fun _ => 0⟩ else none

def everyMinute (planRevision : String) : TriggerSpec :=
  ⟨"nightly", .schedule, "orders", planRevision, true, some "* * * * *", some "UTC", none⟩

def everyMinuteCron : FiveFieldCron where
  expression := "* * * * *"
  minute := ⟨Finset.range 60, true⟩
  hour := ⟨Finset.range 24, true⟩
  dayOfMonth := ⟨(Finset.range 32).erase 0, true⟩
  month := ⟨(Finset.range 13).erase 0, true⟩
  dayOfWeek := ⟨Finset.range 7, true⟩

def revisionA : String := "aaaaaaaaaaaaaaaaaaaaaaaaaaaaaaaaaaaaaaaaaaaaaaaaaaaaaaaaaaaaaaaa"
def revisionB : String := "bbbbbbbbbbbbbbbbbbbbbbbbbbbbbbbbbbbbbbbbbbbbbbbbbbbbbbbbbbbbbbbb"

/-- Downtime caught up in pages of two minutes, with one tick rolled back. -/
def pagedHistory : List SystemEvent :=
  [.start 0 [everyMinute revisionA] (some 0) 10 2, .tick 0 true (minuteInstant 5) 0 true,
    .tick 0 true (minuteInstant 5) 0 false, .tick 0 true (minuteInstant 5) 0 true]

theorem inserted_exactly_selected_minutes_paged :
    Execution.Meets (System.step utcPlatform) (UnchangedSpec (everyMinute revisionA))
      System.initial pagedHistory ∧
    ∀ wakeup ∈ (System.after utcPlatform pagedHistory).db.inserted,
      wakeup.triggerId = "nightly" →
      (System.after utcPlatform pagedHistory).db.inserted.count wakeup = 1 := by
  have hmeets : Execution.Meets (System.step utcPlatform)
      (UnchangedSpec (everyMinute revisionA)) System.initial pagedHistory := by
    decide +kernel
  exact ⟨hmeets, (inserted_exactly_selected_minutes (everyMinute revisionA) "* * * * *" "UTC"
    everyMinuteCron ⟨"UTC", fun _ => 0⟩ pagedHistory rfl rfl rfl (by decide +kernel) rfl rfl
    hmeets).2.2⟩

end Exactness

section Cutover

/-- A committed tick that changes a trigger's specification does so at a horizon that is
not before the stored cursor. -/
def CutsForward (platform : Platform) (s : System) : SystemEvent → Prop
  | .tick process true clock _ true => ∀ scheduler ∈ s.schedulers process,
      ∀ spec ∈ scheduler.triggers, ∀ row ∈ s.db.cursors spec.triggerId,
        row.specSha256 ≠ platform.sha256 (serializeTriggerSpec spec) →
        row.cursorUtc ≤ floorUtcMinute clock
  | _ => True

instance (platform : Platform) (s : System) : DecidablePred (CutsForward platform s)
  | .tick process true clock _ true => inferInstanceAs (Decidable
      (∀ scheduler ∈ s.schedulers process, ∀ spec ∈ scheduler.triggers,
        ∀ row ∈ s.db.cursors spec.triggerId,
          row.specSha256 ≠ platform.sha256 (serializeTriggerSpec spec) →
          row.cursorUtc ≤ floorUtcMinute clock))
  | .tick _ false _ _ _ | .tick _ true _ _ false => isTrue trivial
  | .start .. | .stop _ | .receive .. | .delete .. => isTrue trivial

/-- No cursor row disappears or moves back. -/
def Database.CursorsLe (db db' : Database) : Prop :=
  ∀ triggerId row, db.cursors triggerId = some row →
    ∃ row', db'.cursors triggerId = some row' ∧ row.cursorUtc ≤ row'.cursorUtc

theorem Database.CursorsLe.refl (db : Database) : db.CursorsLe db :=
  fun _ row hrow => ⟨row, hrow, le_refl _⟩

theorem Database.CursorsLe.trans {a b c : Database} (hab : a.CursorsLe b)
    (hbc : b.CursorsLe c) : a.CursorsLe c := by
  intro triggerId row hrow
  obtain ⟨row', hrow', hle⟩ := hab triggerId row hrow
  obtain ⟨row'', hrow'', hle'⟩ := hbc triggerId row' hrow'
  exact ⟨row'', hrow'', hle.trans hle'⟩

/-- Every inserted minute lies behind its trigger's cursor, under one plan revision. -/
structure CursorLedger (db : Database) : Prop where
  behind : ∀ wakeup ∈ db.inserted, ∃ row, db.cursors wakeup.triggerId = some row ∧
    wakeup.scheduledOccurrence ≤ minuteInstant row.cursorUtc
  single : ∀ a ∈ db.inserted, ∀ b ∈ db.inserted, a.triggerId = b.triggerId →
    a.scheduledOccurrence = b.scheduledOccurrence → a.planRevision = b.planRevision

/-- A round that does not cut backward inserts minutes after the cursor it found, and
leaves the cursor at or after them. -/
theorem enqueueTrigger_forward {call : EnqueueCall} {item : Prepared} {db db' : Database}
    {n : ℕ} (hscan : 0 ≤ call.maxScanMinutes)
    (hcut : ∀ row, db.cursors item.spec.triggerId = some row →
      row.specSha256 ≠ item.specSha256 → row.cursorUtc ≤ call.horizon)
    (h : enqueueTrigger platform call item db = .ok (n, db')) :
    ∃ start upto new, start ≤ upto ∧
      (∀ row, db.cursors item.spec.triggerId = some row → row.cursorUtc ≤ start) ∧
      db'.cursors = Function.update db.cursors item.spec.triggerId
        (some ⟨item.specSha256, upto, call.now⟩) ∧
      db'.inserted = db.inserted ++ new ∧
      ∀ w ∈ new, ∃ m, start < m ∧ m ≤ upto ∧ w = scheduledWakeup item.spec m := by
  have hselected : ∀ {cursor upto : ℤ} {new : List ScheduleWakeup} {db : Database},
      Advanced call item cursor upto new db db' →
      ∀ w ∈ new, ∃ m, cursor < m ∧ m ≤ upto ∧ w = scheduledWakeup item.spec m := by
    intro cursor upto new db hadv w hw
    obtain ⟨m, hm, rfl⟩ := List.mem_map.mp (hadv.selected.subset hw)
    obtain ⟨hlo, hhi⟩ := mem_minutesBetween.mp (List.mem_of_mem_filter hm)
    exact ⟨m, hlo, hhi, rfl⟩
  rcases enqueueTrigger_cases h with ⟨hrow, upto, new, hadv⟩ | ⟨row, hrow, hne, rfl⟩ |
    ⟨row, hrow, -, upto, new, hadv⟩
  · refine ⟨call.firstCursor, upto, new, hadv.forward hscan, ?_, ?_, hadv.inserted,
      hselected hadv⟩
    · intro row hsome
      rw [hrow] at hsome
      cases hsome
    · rw [hadv.cursors]
      exact Function.update_idem _ _ _
  · refine ⟨call.horizon, call.horizon, [], le_refl _, ?_, rfl, by simp [Database.setCursor],
      by simp⟩
    intro row' hrow'
    exact hcut row' hrow' (by
      rw [hrow] at hrow'
      obtain rfl := Option.some.inj hrow'
      exact hne)
  · refine ⟨row.cursorUtc, upto, new, hadv.forward hscan, ?_, hadv.cursors, hadv.inserted,
      hselected hadv⟩
    intro row' hrow'
    rw [hrow] at hrow'
    obtain rfl := Option.some.inj hrow'
    exact le_refl _

theorem CursorLedger.round {call : EnqueueCall} {item : Prepared} {db db' : Database} {n : ℕ}
    (ledger : CursorLedger db) (hscan : 0 ≤ call.maxScanMinutes)
    (hcut : ∀ row, db.cursors item.spec.triggerId = some row →
      row.specSha256 ≠ item.specSha256 → row.cursorUtc ≤ call.horizon)
    (h : enqueueTrigger platform call item db = .ok (n, db')) :
    CursorLedger db' ∧ db.CursorsLe db' := by
  obtain ⟨start, upto, new, hforward, hstart, hcursors, hinserted, hnew⟩ :=
    enqueueTrigger_forward hscan hcut h
  have hle : db.CursorsLe db' := by
    intro triggerId row hrow
    by_cases heq : triggerId = item.spec.triggerId
    · subst heq
      refine ⟨_, by rw [hcursors, Function.update_self], ?_⟩
      exact (hstart row hrow).trans hforward
    · exact ⟨row, by rw [hcursors, Function.update_of_ne heq, hrow], le_refl _⟩
  have hold : ∀ w ∈ db.inserted, w.triggerId = item.spec.triggerId →
      w.scheduledOccurrence ≤ minuteInstant start := by
    intro w hw htrigger
    obtain ⟨row, hrow, hbehind⟩ := ledger.behind w hw
    have hcursor := hstart row (htrigger ▸ hrow)
    unfold minuteInstant at *
    omega
  refine ⟨⟨?_, ?_⟩, hle⟩
  · intro w hw
    rw [hinserted] at hw
    rcases List.mem_append.mp hw with hw | hw
    · obtain ⟨row, hrow, hbehind⟩ := ledger.behind w hw
      obtain ⟨row', hrow', hmono⟩ := hle w.triggerId row hrow
      refine ⟨row', hrow', ?_⟩
      unfold minuteInstant at *
      omega
    · obtain ⟨m, -, hm, rfl⟩ := hnew w hw
      refine ⟨⟨item.specSha256, upto, call.now⟩, ?_, ?_⟩
      · rw [hcursors]
        exact Function.update_self _ _ _
      · simp only [scheduledWakeup, minuteInstant]
        omega
  · intro a ha b hb htrigger hoccurrence
    rw [hinserted] at ha hb
    rcases List.mem_append.mp ha with ha | ha <;> rcases List.mem_append.mp hb with hb | hb
    · exact ledger.single a ha b hb htrigger hoccurrence
    · obtain ⟨m, hm, -, rfl⟩ := hnew b hb
      have hbehind := hold a ha htrigger
      simp only [scheduledWakeup, minuteInstant] at hoccurrence hbehind
      omega
    · obtain ⟨m, hm, -, rfl⟩ := hnew a ha
      have hbehind := hold b hb htrigger.symm
      simp only [scheduledWakeup, minuteInstant] at hoccurrence hbehind
      omega
    · obtain ⟨m, -, -, rfl⟩ := hnew a ha
      obtain ⟨m', -, -, rfl⟩ := hnew b hb
      rfl

/-- One event that does not cut backward keeps the ledger and moves no cursor back. -/
theorem CursorLedger.step {s : System} {event : SystemEvent} (ledger : CursorLedger s.db)
    (forward : CutsForward platform s event) :
    CursorLedger (s.step platform event).db ∧ s.db.CursorsLe (s.step platform event).db := by
  refine System.step_database (P := fun db => CursorLedger db ∧ s.db.CursorsLe db) ?_ ?_ ?_
    ⟨ledger, Database.CursorsLe.refl _⟩
  · intro settings call h
    exact ⟨⟨h.1.behind, h.1.single⟩, h.2⟩
  · intro receipt now db' h hdelete
    obtain ⟨-, hcursors, hinserted, -⟩ := delete_spec hdelete
    refine ⟨⟨?_, ?_⟩, ?_⟩
    · rw [hcursors, hinserted]
      exact h.1.behind
    · rw [hinserted]
      exact h.1.single
    · intro triggerId row hrow
      rw [hcursors]
      exact h.2 triggerId row hrow
  · rintro process scheduler clock now db' n rfl hscheduler htick h
    refine tickOnce_invariant (P := fun db => CursorLedger db ∧ s.db.CursorsLe db) htick ?_ h
    intro call item mid mid' n hmid hhorizon hscan hin hitem hsame hround
    have hsha : item.specSha256 = platform.sha256 (serializeTriggerSpec item.spec) :=
      (prepare_spec hitem).2
    obtain ⟨hledger, hle⟩ := hmid.1.round hscan (by
      intro row hrow hne
      rw [hhorizon]
      rw [hsame] at hrow
      exact forward scheduler hscheduler item.spec hin row hrow (hsha ▸ hne)) hround
    exact ⟨hledger, hmid.2.trans hle⟩

/-- The first minute is enqueued under the first plan. -/
def firstMinute : List SystemEvent :=
  [.start 0 [everyMinute revisionA] (some 0) 10 10, .tick 0 true (minuteInstant 1) 0 true]

/-- A leader whose clock agrees with the stored cursor replaces the plan. -/
def forwardCutover : List SystemEvent :=
  [.start 1 [everyMinute revisionB] none 10 10, .tick 1 true (minuteInstant 1) 0 true]

/-- A leader whose clock is one minute behind the stored cursor replaces the plan; its next
tick enqueues the minute the old plan already had. -/
def slowLeaderCutover : List SystemEvent :=
  [.start 1 [everyMinute revisionB] none 10 10, .tick 1 true (minuteInstant 0) 0 true,
    .tick 1 true (minuteInstant 1) 0 true]

end Cutover

end Dander.Schedule
