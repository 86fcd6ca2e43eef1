import Dander.PostgresqlScheduleQueue

/-!
# The leader-elected producer over whole histories

Any number of scheduler processes come and go, each with its own registry, bounds
and clock. A tick is one transaction of whichever process holds the leader lock; it
commits, raises, or is rolled back as a whole. Consumers lease and delete rows in
between. A history is any finite sequence of these events.
-/
namespace Dander.Schedule

/-- A constructed scheduler: its bounds passed the constructor's checks. -/
structure PostgresqlScheduler where
  triggers : List TriggerSpec
  initialCursor : Option ℤ
  maxScanMinutes : ℤ
  maxOccurrences : ℤ
  scan_legal : 1 ≤ maxScanMinutes ∧ maxScanMinutes ≤ 525600
  occurrences_legal : 1 ≤ maxOccurrences ∧ maxOccurrences ≤ 10000

section Construction

variable (platform : Platform)

/-- Registers the triggers by identifier; a repeated identical trigger is merged. -/
def selectTriggers : List TriggerSpec → List TriggerSpec → Option (List TriggerSpec)
  | selected, [] => some selected
  | selected, spec :: rest =>
    match prepare platform spec with
    | .error _ => none
    | .ok _ =>
      match selected.find? (fun other => other.triggerId = spec.triggerId) with
      | none => selectTriggers (selected ++ [spec]) rest
      | some existing => if existing = spec then selectTriggers selected rest else none

/-- The constructor. Every refusal is a `ValueError`, so none is told apart. -/
def PostgresqlScheduler.create (triggers : List TriggerSpec) (initialCursor : Option ℤ)
    (maxScanMinutes maxOccurrences : ℤ) : Option PostgresqlScheduler :=
  if scan : 1 ≤ maxScanMinutes ∧ maxScanMinutes ≤ 525600 then
    if occurrences : 1 ≤ maxOccurrences ∧ maxOccurrences ≤ 10000 then
      match selectTriggers platform [] triggers with
      | none => none
      | some selected =>
        if selected.isEmpty || decide (selected.length > 100) then none
        else some ⟨selected, initialCursor.map floorUtcMinute, maxScanMinutes, maxOccurrences,
          scan, occurrences⟩
    else none
  else none

/-- The initial cursor a tick uses; the first tick of a process fixes it. -/
def PostgresqlScheduler.cursorFor (scheduler : PostgresqlScheduler) (horizon : ℤ) :
    Except Failure ℤ :=
  match scheduler.initialCursor with
  | some cursor => .ok cursor
  | none => addMinutes horizon (-1)

/-- Produces due wakeups once if the process holds the leader lock. -/
def PostgresqlScheduler.tickOnce (scheduler : PostgresqlScheduler) (acquired : Bool)
    (clock now : ℤ) (db : Database) : Except Failure (ℕ × Database) := do
  if !acquired then return (0, db)
  let horizon := floorUtcMinute clock
  let initialCursor ← scheduler.cursorFor horizon
  enqueueDue platform scheduler.triggers now (minuteInstant horizon)
    (minuteInstant initialCursor) scheduler.maxScanMinutes scheduler.maxOccurrences db

/-- The process after a tick: a leader's tick has fixed the initial cursor. -/
def PostgresqlScheduler.afterTick (scheduler : PostgresqlScheduler) (acquired : Bool)
    (clock : ℤ) : PostgresqlScheduler :=
  match acquired, scheduler.cursorFor (floorUtcMinute clock) with
  | true, .ok cursor => { scheduler with initialCursor := some cursor }
  | _, _ => scheduler

end Construction

/-- The database and the live scheduler processes. -/
structure System where
  db : Database
  schedulers : ℕ → Option PostgresqlScheduler

def System.initial : System := ⟨Database.empty, fun _ => none⟩

inductive SystemEvent where
  | start (process : ℕ) (triggers : List TriggerSpec) (initialCursor : Option ℤ)
      (maxScanMinutes maxOccurrences : ℤ)
  | tick (process : ℕ) (acquired : Bool) (clock now : ℤ) (commits : Bool)
  | stop (process : ℕ)
  | receive (settings : QueueSettings) (call : ReceiveCall)
  | delete (receiptHandle : String) (now : ℤ)

section Histories

variable (platform : Platform)

/-- The database a tick leaves: its own if it returned and the commit went through. -/
def tickDatabase (scheduler : PostgresqlScheduler) (acquired : Bool) (clock now : ℤ)
    (commits : Bool) (db : Database) : Database :=
  match commits, scheduler.tickOnce platform acquired clock now db with
  | true, .ok (_, committed) => committed
  | _, _ => db

def System.step (s : System) : SystemEvent → System
  | .start process triggers initialCursor maxScanMinutes maxOccurrences =>
    match PostgresqlScheduler.create platform triggers initialCursor maxScanMinutes
        maxOccurrences with
    | none => s
    | some scheduler =>
      { s with schedulers := Function.update s.schedulers process (some scheduler) }
  | .tick process acquired clock now commits =>
    match s.schedulers process with
    | none => s
    | some scheduler =>
      ⟨tickDatabase platform scheduler acquired clock now commits s.db,
        Function.update s.schedulers process (some (scheduler.afterTick acquired clock))⟩
  | .stop process => { s with schedulers := Function.update s.schedulers process none }
  | .receive settings call => { s with db := (receive platform settings call s.db).2 }
  | .delete receiptHandle now =>
    match delete receiptHandle now s.db with
    | .ok db => { s with db := db }
    | .error _ => s

/-- The state after a history that starts with an empty schema and no process. -/
def System.after (events : List SystemEvent) : System :=
  Execution.run (System.step platform) System.initial events

end Histories

section Steps

variable {platform : Platform}

@[simp] theorem floorUtcMinute_minuteInstant (m : ℤ) : floorUtcMinute (minuteInstant m) = m := by
  unfold floorUtcMinute minuteInstant
  omega

theorem sanitize_eq_ok {α : Type} {message : String} {x : Except Failure α} {value : α}
    (h : sanitize message x = .ok value) : x = .ok value := by
  unfold sanitize at h
  split at h
  · exact h
  · cases h
  · cases h

theorem prepare_spec {spec : TriggerSpec} {item : Prepared}
    (h : prepare platform spec = .ok item) :
    item.spec = spec ∧ item.specSha256 = platform.sha256 (serializeTriggerSpec spec) := by
  unfold prepare at h
  split at h
  · split at h
    · obtain rfl := Except.ok.inj h
      exact ⟨rfl, rfl⟩
    · cases h
  · cases h

/-- Prepared triggers are the registry's own, prepared one by one, with distinct names. -/
theorem prepareAll_spec {seen : List String} {triggers : List TriggerSpec}
    {prepared : List Prepared} (h : prepareAll platform seen triggers = .ok prepared) :
    (∀ item ∈ prepared, item.spec ∈ triggers ∧ prepare platform item.spec = .ok item ∧
      item.spec.triggerId ∉ seen) ∧
    (prepared.map (fun item => item.spec.triggerId)).Nodup := by
  induction triggers generalizing seen prepared with
  | nil =>
    obtain rfl := Except.ok.inj h
    simp
  | cons spec rest ih =>
    unfold prepareAll at h
    obtain ⟨hseen, h⟩ := Execution.guard_eq_ok h
    obtain ⟨first, hfirst, h⟩ := Execution.bind_eq_ok h
    obtain ⟨others, hothers, h⟩ := Execution.bind_eq_ok h
    obtain rfl := Except.ok.inj h
    obtain ⟨hmem, hdistinct⟩ := ih hothers
    have hspec := (prepare_spec hfirst).1
    constructor
    · intro item hitem
      rcases List.mem_cons.mp hitem with rfl | hin
      · exact ⟨by simp [hspec], hspec ▸ hfirst, hspec ▸ hseen⟩
      · obtain ⟨hrest, hok, hfresh⟩ := hmem item hin
        exact ⟨by simp [hrest], hok, fun hin => hfresh (by simp [hin])⟩
    · refine List.nodup_cons.mpr ⟨?_, hdistinct⟩
      intro hin
      obtain ⟨item, hitem, heq⟩ := List.mem_map.mp hin
      exact (hmem item hitem).2.2 (by simp [heq, hspec])

/-- A committed leader tick keeps every fact of the database that each round keeps: its
rounds are over the prepared triggers of the process, at the floor of its clock, within
legal bounds, and each finds the cursor row the tick found. -/
theorem tickOnce_invariant {scheduler : PostgresqlScheduler} {clock now : ℤ}
    {db db' : Database} {produced : ℕ} {P : Database → Prop}
    (h : scheduler.tickOnce platform true clock now db = .ok (produced, db'))
    (keep : ∀ call item mid mid' n, P mid → call.horizon = floorUtcMinute clock →
      0 ≤ call.maxScanMinutes → item.spec ∈ scheduler.triggers →
      prepare platform item.spec = .ok item →
      mid.cursors item.spec.triggerId = db.cursors item.spec.triggerId →
      enqueueTrigger platform call item mid = .ok (n, mid') → P mid')
    (h0 : P db) : P db' := by
  unfold PostgresqlScheduler.tickOnce at h
  simp only [Bool.not_true, Bool.false_eq_true, if_false] at h
  obtain ⟨initialCursor, -, h⟩ := Execution.bind_eq_ok h
  unfold enqueueDue at h
  obtain ⟨-, h⟩ := Execution.guard_eq_ok h
  obtain ⟨-, h⟩ := Execution.guard_eq_ok h
  obtain ⟨prepared, hprepared, h⟩ := Execution.bind_eq_ok h
  obtain ⟨hmem, hdistinct⟩ := prepareAll_spec hprepared
  have hscan : 0 ≤ scheduler.maxScanMinutes := by
    have hlegal := scheduler.scan_legal.1
    omega
  refine enqueuePrepared_invariant hdistinct ?_ h0 (fun _ _ => rfl) (sanitize_eq_ok h)
  intro item hitem mid mid' n hmid hsame hround
  obtain ⟨hin, hok, -⟩ := hmem item hitem
  exact keep _ item mid mid' n hmid (by simp) hscan hin hok hsame hround

/-- A fact of the database that consumers keep, and that every committed transaction of a
live process keeps, survives an event. -/
theorem System.step_database {P : Database → Prop} {s : System} {event : SystemEvent}
    (hreceive : ∀ settings call, P s.db → P (receive platform settings call s.db).2)
    (hdelete : ∀ receipt now db', P s.db → delete receipt now s.db = .ok db' → P db')
    (htick : ∀ process scheduler clock now db' n, event = .tick process true clock now true →
      s.schedulers process = some scheduler →
      scheduler.tickOnce platform true clock now s.db = .ok (n, db') → P s.db → P db')
    (h : P s.db) : P (s.step platform event).db := by
  cases event with
  | start process triggers initialCursor maxScanMinutes maxOccurrences =>
    simp only [System.step]
    split <;> exact h
  | tick process acquired clock now commits =>
    simp only [System.step]
    split
    · exact h
    next scheduler hscheduler =>
      simp only [tickDatabase]
      split
      next n committed hcommitted =>
        cases acquired with
        | false =>
          simp only [PostgresqlScheduler.tickOnce, Bool.not_false, if_true] at hcommitted
          obtain ⟨-, rfl⟩ := Prod.mk.inj (Except.ok.inj hcommitted)
          exact h
        | true => exact htick process scheduler clock now committed n rfl hscheduler hcommitted h
      · exact h
  | stop process => exact h
  | receive settings call => exact hreceive settings call h
  | delete receipt now =>
    simp only [System.step]
    split
    next db' hdb => exact hdelete receipt now db' h hdb
    · exact h

end Steps

end Dander.Schedule
