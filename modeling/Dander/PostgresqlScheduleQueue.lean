import Dander.Execution
import Dander.ScheduleRecords
import Mathlib.Data.List.Sort

/-!
# Schedule cursors and the leased wakeup queue

`enqueue_due` advances one cursor row per trigger and inserts its wakeups in one
transaction: it either returns the database it commits or raises and leaves the
database as it was. The history fields of the database are not columns; they
record every row an insert has ever created, which deletes do not undo.
-/
namespace Dander.Schedule

/-- What the code calls outside the repository: the hash and the zone database. -/
structure Platform where
  sha256 : String → String
  zoneInfo : String → Option ZoneInfo

structure CursorRow where
  specSha256 : String
  cursorUtc : ℤ
  updatedAt : ℤ
  deriving Repr, DecidableEq

structure QueueRow where
  messageId : String
  wakeup : ScheduleWakeup
  body : String
  availableAt : ℤ
  deliveryCount : ℕ
  receiptHandle : Option String
  leaseUntil : Option ℤ
  deadLetteredAt : Option ℤ
  createdAt : ℤ
  deriving Repr, DecidableEq

/-- The two schedule tables, with the history of the inserts made into them. -/
structure Database where
  cursors : String → Option CursorRow
  queue : List QueueRow
  inserted : List ScheduleWakeup
  firstCursor : String → Option ℤ

def Database.empty : Database := ⟨fun _ => none, [], [], fun _ => none⟩

def Database.setCursor (db : Database) (triggerId : String) (row : CursorRow) : Database :=
  { db with cursors := Function.update db.cursors triggerId (some row) }

/-- The insert of a trigger's first cursor row. -/
def Database.insertCursor (db : Database) (triggerId : String) (row : CursorRow) : Database :=
  { db.setCursor triggerId row with
    firstCursor := Function.update db.firstCursor triggerId (some row.cursorUtc) }

/-- The insert of one wakeup: a row with the same trigger, plan revision and occurrence
wins, and a row with another key but the same message identifier is an error. -/
def Database.insertWakeup (db : Database) (now : ℤ) (messageId body : String)
    (wakeup : ScheduleWakeup) : Except Failure (Bool × Database) :=
  if db.queue.any (fun row => row.wakeup = wakeup) then .ok (false, db)
  else if db.queue.any (fun row => row.messageId = messageId) then .error .database
  else
    let row : QueueRow := ⟨messageId, wakeup, body, now, 0, none, none, none, now⟩
    .ok (true, { db with queue := db.queue ++ [row], inserted := db.inserted ++ [wakeup] })

/-- A trigger with its parsed schedule, resolved zone and identity. -/
structure Prepared where
  spec : TriggerSpec
  expression : FiveFieldCron
  zone : ZoneInfo
  specSha256 : String

section Enqueue

variable (platform : Platform)

/-- The parameters of one `enqueue_due` call, already floored to minutes. -/
structure EnqueueCall where
  now : ℤ
  horizon : ℤ
  firstCursor : ℤ
  maxScanMinutes : ℤ
  maxOccurrences : ℤ

def prepare (spec : TriggerSpec) : Except Failure Prepared :=
  match spec.kind, spec.schedule, spec.timeZone with
  | .schedule, some schedule, some timeZone =>
    match parseFiveFieldCron schedule, requireIanaTimeZone platform.zoneInfo timeZone with
    | .ok expression, .ok zone =>
      .ok ⟨spec, expression, zone, platform.sha256 (serializeTriggerSpec spec)⟩
    | _, _ => .error (.scheduleQueue "The PostgreSQL schedule definition is invalid.")
  | _, _, _ =>
    .error (.scheduleQueue "The PostgreSQL scheduler accepts scheduled triggers only.")

/-- Prepares every trigger, refusing a repeated identifier. -/
def prepareAll (seen : List String) : List TriggerSpec → Except Failure (List Prepared)
  | [] => .ok []
  | spec :: rest => do
    if spec.triggerId ∈ seen then
      throw (.scheduleQueue "The PostgreSQL schedule registry has duplicate triggers.")
    let first ← prepare platform spec
    let others ← prepareAll (spec.triggerId :: seen) rest
    return first :: others

def scheduledWakeup (spec : TriggerSpec) (occurrence : ℤ) : ScheduleWakeup :=
  ⟨spec.triggerId, spec.planRevision, minuteInstant occurrence⟩

/-- Inserts the wakeups of one page and counts the new ones. -/
def insertOccurrences (now : ℤ) (spec : TriggerSpec) :
    List ℤ → Database → Except Failure (ℕ × Database)
  | [], db => .ok (0, db)
  | occurrence :: rest, db => do
    let wakeup := scheduledWakeup spec occurrence
    let body := serializeScheduleWakeup wakeup
    let (isNew, db) ← db.insertWakeup now (platform.sha256 body) body wakeup
    let (produced, db) ← insertOccurrences now spec rest db
    return (produced + (if isNew then 1 else 0), db)

/-- The occurrences of one page; a disabled trigger has none. -/
def dueOccurrences (call : EnqueueCall) (item : Prepared) (cursor scanHorizon : ℤ) :
    Except Failure (List ℤ) :=
  if item.spec.enabled then
    iterScheduleOccurrences item.expression item.zone cursor scanHorizon
      call.maxScanMinutes call.maxOccurrences
  else .ok []

/-- One catch-up page from a cursor under an unchanged specification. -/
def advanceCursor (call : EnqueueCall) (item : Prepared) (cursor : ℤ) (db : Database) :
    Except Failure (ℕ × Database) := do
  if cursor > call.horizon then
    throw (.scheduleQueue "The PostgreSQL schedule cursor is ahead of time.")
  let pageMinutes := if !item.spec.enabled then call.maxScanMinutes
    else min call.maxScanMinutes call.maxOccurrences
  let pageEnd ← addMinutes cursor pageMinutes
  let scanHorizon := min call.horizon pageEnd
  let occurrences ← dueOccurrences call item cursor scanHorizon
  let (produced, db) ← insertOccurrences platform call.now item.spec occurrences db
  return (produced, db.setCursor item.spec.triggerId ⟨item.specSha256, scanHorizon, call.now⟩)

/-- One round of the transaction: a changed specification cuts over at the horizon. -/
def enqueueTrigger (call : EnqueueCall) (item : Prepared) (db : Database) :
    Except Failure (ℕ × Database) :=
  match db.cursors item.spec.triggerId with
  | none => advanceCursor platform call item call.firstCursor
      (db.insertCursor item.spec.triggerId ⟨item.specSha256, call.firstCursor, call.now⟩)
  | some row =>
    if row.specSha256 ≠ item.specSha256 then
      .ok (0, db.setCursor item.spec.triggerId ⟨item.specSha256, call.horizon, call.now⟩)
    else advanceCursor platform call item row.cursorUtc db

def enqueuePrepared (call : EnqueueCall) :
    List Prepared → Database → Except Failure (ℕ × Database)
  | [], db => .ok (0, db)
  | item :: rest, db => do
    let (first, db) ← enqueueTrigger platform call item db
    let (others, db) ← enqueuePrepared call rest db
    return (first + others, db)

/-- Only queue errors leave the transaction under their own text. -/
def sanitize {α : Type} (message : String) : Except Failure α → Except Failure α
  | .ok value => .ok value
  | .error (.scheduleQueue text) => .error (.scheduleQueue text)
  | .error _ => .error (.scheduleQueue message)

/-- Advances the cursors of the triggers and enqueues their occurrences up to the
horizon, in one transaction. -/
def enqueueDue (triggers : List TriggerSpec) (now through initialCursor maxScanMinutes
    maxOccurrences : ℤ) (db : Database) : Except Failure (ℕ × Database) := do
  let horizon := floorUtcMinute through
  let firstCursor := floorUtcMinute initialCursor
  if firstCursor > horizon then
    throw (.scheduleQueue "The schedule initial cursor cannot follow its horizon.")
  if triggers.length > 100 then
    throw (.scheduleQueue "The PostgreSQL scheduler accepts at most 100 triggers.")
  let prepared ← prepareAll platform [] triggers
  sanitize "The PostgreSQL schedule enqueue failed."
    (enqueuePrepared platform ⟨now, horizon, firstCursor, maxScanMinutes, maxOccurrences⟩
      prepared db)

end Enqueue

section EnqueueSpec

variable {platform : Platform}

/-- The database after some wakeups were inserted and nothing else was changed. -/
structure Database.Grows (db db' : Database) (new : List ScheduleWakeup) : Prop where
  cursors : db'.cursors = db.cursors
  firstCursor : db'.firstCursor = db.firstCursor
  inserted : db'.inserted = db.inserted ++ new
  queued : db'.queue.map QueueRow.wakeup = db.queue.map QueueRow.wakeup ++ new

theorem Database.Grows.rfl' (db : Database) : db.Grows db [] :=
  ⟨rfl, rfl, by simp, by simp⟩

theorem Database.Grows.trans {a b c : Database} {xs ys : List ScheduleWakeup}
    (first : a.Grows b xs) (second : b.Grows c ys) : a.Grows c (xs ++ ys) where
  cursors := second.cursors.trans first.cursors
  firstCursor := second.firstCursor.trans first.firstCursor
  inserted := by rw [second.inserted, first.inserted, List.append_assoc]
  queued := by rw [second.queued, first.queued, List.append_assoc]

/-- An insert either finds the wakeup already queued or adds it. -/
theorem Database.insertWakeup_spec {db db' : Database} {now : ℤ} {messageId body : String}
    {wakeup : ScheduleWakeup} {isNew : Bool}
    (h : db.insertWakeup now messageId body wakeup = .ok (isNew, db')) :
    (wakeup ∈ db.queue.map QueueRow.wakeup ∧ db.Grows db' []) ∨
      (wakeup ∉ db.queue.map QueueRow.wakeup ∧ db.Grows db' [wakeup]) := by
  unfold insertWakeup at h
  split at h
  next hqueued =>
    obtain ⟨-, rfl⟩ := Prod.mk.inj (Except.ok.inj h)
    left
    refine ⟨?_, Database.Grows.rfl' _⟩
    simpa using hqueued
  next hfresh =>
    split at h
    · cases h
    · obtain ⟨-, rfl⟩ := Prod.mk.inj (Except.ok.inj h)
      right
      refine ⟨?_, ⟨rfl, rfl, rfl, by simp⟩⟩
      simpa using hfresh

/-- A page inserts some of its occurrences, and all of them when none was queued yet. -/
theorem insertOccurrences_spec {now : ℤ} {spec : TriggerSpec} {occurrences : List ℤ}
    {db db' : Database} {produced : ℕ}
    (h : insertOccurrences platform now spec occurrences db = .ok (produced, db')) :
    ∃ new, db.Grows db' new ∧ new.Sublist (occurrences.map (scheduledWakeup spec)) ∧
      (occurrences.Nodup →
        (∀ m ∈ occurrences, scheduledWakeup spec m ∉ db.queue.map QueueRow.wakeup) →
        new = occurrences.map (scheduledWakeup spec)) := by
  induction occurrences generalizing db produced with
  | nil =>
    obtain ⟨-, rfl⟩ := Prod.mk.inj (Except.ok.inj h)
    exact ⟨[], Database.Grows.rfl' _, List.Sublist.refl _, fun _ _ => rfl⟩
  | cons occurrence rest ih =>
    obtain ⟨⟨isNew, mid⟩, hfirst, h⟩ := Execution.bind_eq_ok h
    obtain ⟨⟨others, last⟩, hrest, h⟩ := Execution.bind_eq_ok h
    obtain ⟨-, rfl⟩ := Prod.mk.inj (Except.ok.inj h)
    obtain ⟨new, hgrows, hsub, hall⟩ := ih hrest
    rcases Database.insertWakeup_spec hfirst with ⟨hmem, hmid⟩ | ⟨hmem, hmid⟩
    · refine ⟨[] ++ new, hmid.trans hgrows, hsub.cons _, ?_⟩
      intro _ hfresh
      exact absurd hmem (hfresh occurrence (by simp))
    · refine ⟨[scheduledWakeup spec occurrence] ++ new, hmid.trans hgrows, hsub.cons_cons _, ?_⟩
      intro hnodup hfresh
      obtain ⟨hnot, hnodup⟩ := List.nodup_cons.mp hnodup
      rw [hall hnodup]
      · rfl
      · intro m hm
        rw [hmid.queued, List.mem_append, not_or]
        refine ⟨hfresh m (by simp [hm]), ?_⟩
        intro heq
        have hsame : m = occurrence := by simpa [scheduledWakeup] using heq
        exact hnot (hsame ▸ hm)

/-- What a page that commits did: the cursor moved from `cursor` to `upto`, and the new
wakeups are selected minutes in between. -/
structure Advanced (call : EnqueueCall) (item : Prepared) (cursor upto : ℤ)
    (new : List ScheduleWakeup) (db db' : Database) : Prop where
  inHorizon : cursor ≤ call.horizon
  forward : 0 ≤ call.maxScanMinutes → cursor ≤ upto
  cursors : db'.cursors = Function.update db.cursors item.spec.triggerId
    (some ⟨item.specSha256, upto, call.now⟩)
  firstCursor : db'.firstCursor = db.firstCursor
  inserted : db'.inserted = db.inserted ++ new
  queued : db'.queue.map QueueRow.wakeup = db.queue.map QueueRow.wakeup ++ new
  selected : new.Sublist (((minutesBetween cursor upto).filter
    (item.expression.selects item.zone)).map (scheduledWakeup item.spec))
  complete : item.spec.enabled = true →
    (∀ m ∈ minutesBetween cursor upto,
      scheduledWakeup item.spec m ∉ db.queue.map QueueRow.wakeup) →
    cursor ≤ upto ∧ new = ((minutesBetween cursor upto).filter
      (item.expression.selects item.zone)).map (scheduledWakeup item.spec)

theorem Database.Grows.advanced {call : EnqueueCall} {item : Prepared} {cursor upto : ℤ}
    {new : List ScheduleWakeup} {db mid : Database} (grows : db.Grows mid new)
    (inHorizon : cursor ≤ call.horizon) (forward : 0 ≤ call.maxScanMinutes → cursor ≤ upto)
    (selected : new.Sublist (((minutesBetween cursor upto).filter
      (item.expression.selects item.zone)).map (scheduledWakeup item.spec)))
    (complete : item.spec.enabled = true →
      (∀ m ∈ minutesBetween cursor upto,
        scheduledWakeup item.spec m ∉ db.queue.map QueueRow.wakeup) →
      cursor ≤ upto ∧ new = ((minutesBetween cursor upto).filter
        (item.expression.selects item.zone)).map (scheduledWakeup item.spec)) :
    Advanced call item cursor upto new db
      (mid.setCursor item.spec.triggerId ⟨item.specSha256, upto, call.now⟩) where
  inHorizon := inHorizon
  forward := forward
  cursors := by simp [Database.setCursor, grows.cursors]
  firstCursor := grows.firstCursor
  inserted := grows.inserted
  queued := grows.queued
  selected := selected
  complete := complete

theorem advanceCursor_spec {call : EnqueueCall} {item : Prepared} {cursor : ℤ}
    {db db' : Database} {produced : ℕ}
    (h : advanceCursor platform call item cursor db = .ok (produced, db')) :
    ∃ upto new, Advanced call item cursor upto new db db' := by
  unfold advanceCursor at h
  obtain ⟨hhorizon, h⟩ := Execution.guard_eq_ok h
  obtain ⟨pageEnd, hpage, h⟩ := Execution.bind_eq_ok h
  obtain rfl := addMinutes_eq_ok hpage
  obtain ⟨occurrences, hscan, h⟩ := Execution.bind_eq_ok h
  obtain ⟨⟨count, mid⟩, hinsert, h⟩ := Execution.bind_eq_ok h
  obtain ⟨-, rfl⟩ := Prod.mk.inj (Except.ok.inj h)
  obtain ⟨new, hgrows, hsub, hall⟩ := insertOccurrences_spec hinsert
  cases henabled : item.spec.enabled with
  | true =>
    simp only [dueOccurrences, henabled, if_true] at hscan
    obtain ⟨hforward, rfl⟩ := iterScheduleOccurrences_eq_ok hscan
    refine ⟨_, new, hgrows.advanced (by omega) (fun _ => hforward) hsub ?_⟩
    intro _ hfresh
    refine ⟨hforward, hall ((nodup_minutesBetween _ _).filter _) ?_⟩
    intro m hm
    exact hfresh m (List.mem_of_mem_filter hm)
  | false =>
    simp only [dueOccurrences, henabled, Bool.false_eq_true, if_false] at hscan
    obtain rfl := Except.ok.inj hscan
    obtain rfl : new = [] := by simpa using hsub
    refine ⟨_, [], hgrows.advanced (by omega) ?_ (List.nil_sublist _) ?_⟩
    · intro hscan
      simp only [Bool.not_false, if_true]
      omega
    · intro htrue
      rw [henabled] at htrue
      cases htrue

/-- Everything one round of the transaction can do to a trigger. -/
theorem enqueueTrigger_cases {call : EnqueueCall} {item : Prepared} {db db' : Database}
    {produced : ℕ} (h : enqueueTrigger platform call item db = .ok (produced, db')) :
    (db.cursors item.spec.triggerId = none ∧ ∃ upto new,
      Advanced call item call.firstCursor upto new
        (db.insertCursor item.spec.triggerId
          ⟨item.specSha256, call.firstCursor, call.now⟩) db') ∨
    (∃ row, db.cursors item.spec.triggerId = some row ∧ row.specSha256 ≠ item.specSha256 ∧
      db' = db.setCursor item.spec.triggerId ⟨item.specSha256, call.horizon, call.now⟩) ∨
    (∃ row, db.cursors item.spec.triggerId = some row ∧ row.specSha256 = item.specSha256 ∧
      ∃ upto new, Advanced call item row.cursorUtc upto new db db') := by
  unfold enqueueTrigger at h
  split at h
  next hrow => exact .inl ⟨hrow, advanceCursor_spec h⟩
  next row hrow =>
    split at h
    next hchanged =>
      obtain ⟨-, rfl⟩ := Prod.mk.inj (Except.ok.inj h)
      exact .inr (.inl ⟨row, hrow, hchanged, rfl⟩)
    next hsame => exact .inr (.inr ⟨row, hrow, not_not.mp hsame, advanceCursor_spec h⟩)

/-- A round leaves the cursors of other triggers alone. -/
theorem enqueueTrigger_frame {call : EnqueueCall} {item : Prepared} {db db' : Database}
    {produced : ℕ} {other : String}
    (h : enqueueTrigger platform call item db = .ok (produced, db'))
    (hother : other ≠ item.spec.triggerId) : db'.cursors other = db.cursors other := by
  rcases enqueueTrigger_cases h with ⟨-, upto, new, hadv⟩ | ⟨row, -, -, rfl⟩ |
    ⟨row, -, -, upto, new, hadv⟩
  · rw [hadv.cursors, Function.update_of_ne hother]
    exact Function.update_of_ne hother _ _
  · exact Function.update_of_ne hother _ _
  · rw [hadv.cursors, Function.update_of_ne hother]

/-- A fact of the database that every round keeps is kept by the transaction. A round finds
the cursor row of its trigger as the transaction found it, for no trigger comes twice. -/
theorem enqueuePrepared_invariant {call : EnqueueCall} {prepared : List Prepared}
    {P : Database → Prop} {db : Database}
    (distinct : (prepared.map (fun item => item.spec.triggerId)).Nodup)
    (keep : ∀ item ∈ prepared, ∀ mid mid' n, P mid →
      mid.cursors item.spec.triggerId = db.cursors item.spec.triggerId →
      enqueueTrigger platform call item mid = .ok (n, mid') → P mid')
    {mid db' : Database} {produced : ℕ} (h0 : P mid)
    (same : ∀ item ∈ prepared,
      mid.cursors item.spec.triggerId = db.cursors item.spec.triggerId)
    (h : enqueuePrepared platform call prepared mid = .ok (produced, db')) : P db' := by
  induction prepared generalizing mid produced with
  | nil =>
    obtain ⟨-, rfl⟩ := Prod.mk.inj (Except.ok.inj h)
    exact h0
  | cons item rest ih =>
    obtain ⟨⟨first, next⟩, hfirst, h⟩ := Execution.bind_eq_ok h
    obtain ⟨⟨others, last⟩, hrest, h⟩ := Execution.bind_eq_ok h
    obtain ⟨-, rfl⟩ := Prod.mk.inj (Except.ok.inj h)
    obtain ⟨hnot, hdistinct⟩ := List.nodup_cons.mp distinct
    have hnext : P next := keep item (by simp) mid next first h0 (same item (by simp)) hfirst
    refine ih hdistinct (fun other hother => keep other (by simp [hother])) hnext ?_ hrest
    intro other hother
    have hne : other.spec.triggerId ≠ item.spec.triggerId := by
      intro heq
      exact hnot (List.mem_map.mpr ⟨other, hother, heq⟩)
    rw [enqueueTrigger_frame hfirst hne]
    exact same other (by simp [hother])

end EnqueueSpec

section Consume

/-- The settings of a queue adapter. -/
structure QueueSettings where
  batchSize : ℕ
  visibilityTimeoutSeconds : ℕ
  maxDeliveries : ℕ
  batch_legal : 1 ≤ batchSize ∧ batchSize ≤ 10
  visibility_legal : 1 ≤ visibilityTimeoutSeconds ∧ visibilityTimeoutSeconds ≤ 3600
  deliveries_legal : 1 ≤ maxDeliveries ∧ maxDeliveries ≤ 100

structure QueuedScheduleMessage where
  receiptHandle : String
  body : String
  deriving Repr, DecidableEq

/-- What one receive call reads outside the tables: the clock at each of its statements,
the rows other transactions hold locked, and the receipts it draws. -/
structure ReceiveCall where
  sweptAt : ℤ
  selectedAt : ℤ
  leasedAt : ℕ → ℤ
  locked : String → Bool
  receipt : ℕ → String

/-- No current lease. -/
def QueueRow.leaseFree (row : QueueRow) (now : ℤ) : Bool :=
  match row.leaseUntil with
  | none => true
  | some until_ => decide (until_ ≤ now)

def QueueRow.deadLetter (row : QueueRow) (now : ℤ) : QueueRow :=
  { row with deadLetteredAt := some now, receiptHandle := none, leaseUntil := none }

/-- One more delivery, under a new receipt. -/
def QueueRow.lease (row : QueueRow) (receipt : String) (leaseUntil : ℤ) : QueueRow :=
  { row with
    deliveryCount := row.deliveryCount + 1
    receiptHandle := some receipt
    leaseUntil := some leaseUntil }

/-- The sweep of rows whose deliveries are used up. -/
def sweep (settings : QueueSettings) (now : ℤ) (row : QueueRow) : QueueRow :=
  if row.deadLetteredAt.isNone && decide (settings.maxDeliveries ≤ row.deliveryCount) &&
      row.leaseFree now then row.deadLetter now
  else row

def QueueRow.visible (row : QueueRow) (settings : QueueSettings) (now : ℤ) : Bool :=
  row.deadLetteredAt.isNone && decide (row.availableAt ≤ now) &&
    decide (row.deliveryCount < settings.maxDeliveries) && row.leaseFree now

/-- The order of delivery: availability, then creation, then message identifier. -/
def deliveredBefore (a b : QueueRow) : Prop :=
  a.availableAt < b.availableAt ∨ (a.availableAt = b.availableAt ∧
    (a.createdAt < b.createdAt ∨ (a.createdAt = b.createdAt ∧ a.messageId ≤ b.messageId)))

instance : DecidableRel deliveredBefore := fun a b => by
  unfold deliveredBefore
  infer_instance

variable (platform : Platform)

/-- Rewrites the row of one message. -/
def updateMessage (messageId : String) (change : QueueRow → QueueRow) (queue : List QueueRow) :
    List QueueRow :=
  queue.map (fun row => if row.messageId = messageId then change row else row)

def QueueRow.intact (row : QueueRow) : Bool :=
  decide (platform.sha256 row.body = row.messageId) &&
    ((deserializeScheduleWakeup row.body).map serializeScheduleWakeup == some row.body)

/-- Leases the selected rows one after another; a row whose bytes are not the canonical
text its identifier hashes is dead-lettered instead. -/
def leaseRows (settings : QueueSettings) (call : ReceiveCall) :
    ℕ → List QueueRow → List QueueRow → List QueuedScheduleMessage × List QueueRow
  | _, [], queue => ([], queue)
  | index, row :: rest, queue =>
    if row.intact platform then
      let (messages, queue) := leaseRows settings call (index + 1) rest
        (updateMessage row.messageId (fun r => r.lease (call.receipt index)
          (call.leasedAt index + 1000000 * (settings.visibilityTimeoutSeconds : ℤ))) queue)
      (⟨call.receipt index, row.body⟩ :: messages, queue)
    else
      leaseRows settings call (index + 1) rest
        (updateMessage row.messageId (fun r => r.deadLetter (call.leasedAt index)) queue)

/-- Leases one bounded visible batch with fresh receipts, skipping locked rows. -/
def receive (settings : QueueSettings) (call : ReceiveCall) (db : Database) :
    List QueuedScheduleMessage × Database :=
  let swept := db.queue.map (sweep settings call.sweptAt)
  let candidates := swept.filter
    (fun row => row.visible settings call.selectedAt && !call.locked row.messageId)
  let rows := (candidates.insertionSort deliveredBefore).take settings.batchSize
  let (messages, queue) := leaseRows platform settings call 0 rows swept
  (messages, { db with queue := queue })

/-- The rows a delete with this receipt removes. -/
def QueueRow.acknowledgedBy (row : QueueRow) (receiptHandle : String) (now : ℤ) : Bool :=
  row.receiptHandle == some receiptHandle && row.deadLetteredAt.isNone &&
    match row.leaseUntil with
    | none => false
    | some until_ => decide (now < until_)

/-- The canonical spelling of a UUID: hyphenated lowercase hexadecimal. -/
def isUuid (text : String) : Bool :=
  let groups := text.toList.splitOn '-'
  decide (groups.map List.length = [8, 4, 4, 4, 12]) && groups.all (fun group => group.all
    (fun c => (97 ≤ c.toNat && c.toNat ≤ 102) || (48 ≤ c.toNat && c.toNat ≤ 57)))

/-- Acknowledges only the exact current lease receipt. -/
def delete (receiptHandle : String) (now : ℤ) (db : Database) : Except Failure Database :=
  if !isUuid receiptHandle then .error (.scheduleQueue "Schedule queue receipt is invalid.")
  else if db.queue.any (fun row => row.acknowledgedBy receiptHandle now) then
    .ok { db with queue :=
      db.queue.filter (fun row => !row.acknowledgedBy receiptHandle now) }
  else .error (.scheduleQueue "The PostgreSQL schedule receipt is stale.")

end Consume

section ConsumeSpec

variable {platform : Platform}

theorem updateMessage_wakeups {messageId : String} {change : QueueRow → QueueRow}
    {queue : List QueueRow} (hchange : ∀ row, (change row).wakeup = row.wakeup) :
    (updateMessage messageId change queue).map QueueRow.wakeup =
      queue.map QueueRow.wakeup := by
  simp only [updateMessage, List.map_map]
  refine List.map_congr_left ?_
  intro row _
  by_cases h : row.messageId = messageId <;> simp [h, hchange]

theorem leaseRows_wakeups {settings : QueueSettings} {call : ReceiveCall} {index : ℕ}
    {rows queue : List QueueRow} :
    (leaseRows platform settings call index rows queue).2.map QueueRow.wakeup =
      queue.map QueueRow.wakeup := by
  induction rows generalizing index queue with
  | nil => rfl
  | cons row rest ih =>
    simp only [leaseRows]
    split
    · rw [ih]
      exact updateMessage_wakeups (fun _ => rfl)
    · rw [ih]
      exact updateMessage_wakeups (fun _ => rfl)

/-- Receiving changes leases and dead letters, never which wakeups are queued. -/
theorem receive_wakeups (settings : QueueSettings) (call : ReceiveCall) (db : Database) :
    (receive platform settings call db).2.queue.map QueueRow.wakeup =
      db.queue.map QueueRow.wakeup := by
  have hsweep : ∀ row : QueueRow, (sweep settings call.sweptAt row).wakeup = row.wakeup := by
    intro row
    unfold sweep
    split <;> rfl
  simp only [receive, leaseRows_wakeups, List.map_map]
  exact List.map_congr_left (fun row _ => hsweep row)

/-- A delete that succeeds only removes rows. -/
theorem delete_spec {receiptHandle : String} {now : ℤ} {db db' : Database}
    (h : delete receiptHandle now db = .ok db') :
    db'.queue.Sublist db.queue ∧ db'.cursors = db.cursors ∧ db'.inserted = db.inserted ∧
      db'.firstCursor = db.firstCursor := by
  unfold delete at h
  split at h
  · cases h
  split at h
  · obtain rfl := Except.ok.inj h
    exact ⟨List.filter_sublist, rfl, rfl, rfl⟩
  · cases h

end ConsumeSpec

end Dander.Schedule
