import Dander.PostgresqlScheduleQueue
import Mathlib

/-!
# Leases of queued wakeups

Any number of consumers receive from one queue and delete by receipt while wakeups are added to
it. Every delivery is a lease of its message from one instant to another. Calls take effect in the
order of their commits; their statements may have read the clock in another order, for only the
statements of one call follow each other.
-/
namespace Dander.Schedule

section Deliveries

/-- One delivery: who got the message under which receipt, and when its lease begins and ends. -/
structure Delivery where
  consumer : ℕ
  messageId : String
  body : String
  receiptHandle : String
  leasedAt : ℤ
  leaseUntil : ℤ
  deriving Repr, DecidableEq

/-- The queue and every delivery out of it, the latest one first. -/
structure LeasedQueue where
  db : Database
  deliveries : List Delivery

/-- The deliveries of one message, the latest one first. -/
def deliveriesOf (deliveries : List Delivery) (messageId : String) : List Delivery :=
  deliveries.filter (fun delivery => delivery.messageId = messageId)

variable (platform : Platform) (settings : QueueSettings)

def deliveryOf (consumer : ℕ) (call : ReceiveCall) (index : ℕ) (row : QueueRow) : Delivery where
  consumer := consumer
  messageId := row.messageId
  body := row.body
  receiptHandle := call.receipt index
  leasedAt := call.leasedAt index
  leaseUntil := call.leasedAt index + 1000000 * (settings.visibilityTimeoutSeconds : ℤ)

/-- The deliveries that leasing the selected rows makes. -/
def deliveriesOfRows (consumer : ℕ) (call : ReceiveCall) : ℕ → List QueueRow → List Delivery
  | _, [] => []
  | index, row :: rest =>
    if row.intact platform then
      deliveryOf settings consumer call index row :: deliveriesOfRows consumer call (index + 1) rest
    else deliveriesOfRows consumer call (index + 1) rest

/-- The rows that a receive call selects. -/
def selectedRows (call : ReceiveCall) (db : Database) : List QueueRow :=
  (((db.queue.map (sweep settings call.sweptAt)).filter
    (fun row => row.visible settings call.selectedAt && !call.locked row.messageId)).insertionSort
      deliveredBefore).take settings.batchSize

/-- A row is leased after it was selected. -/
def ReceiveCall.Ticks (call : ReceiveCall) : Prop :=
  ∀ i, call.selectedAt ≤ call.leasedAt i

/-- Drawn receipts are new and different from each other. -/
def ReceiveCall.DrawsFresh (call : ReceiveCall) (deliveries : List Delivery) : Prop :=
  (∀ i j, call.receipt i = call.receipt j → i = j) ∧
    ∀ i, ∀ delivery ∈ deliveries, delivery.receiptHandle ≠ call.receipt i

/-- A message as the scheduler inserts it. -/
structure QueueRow.Pristine (row : QueueRow) : Prop where
  deliveryCount : row.deliveryCount = 0
  receiptHandle : row.receiptHandle = none
  leaseUntil : row.leaseUntil = none
  deadLetteredAt : row.deadLetteredAt = none

/-- One committed call; a new message is one that was not queued or delivered before. -/
inductive LeasedQueue.Step : LeasedQueue → LeasedQueue → Prop
  | receive (s : LeasedQueue) (consumer : ℕ) (call : ReceiveCall) (ticks : call.Ticks)
      (fresh : call.DrawsFresh s.deliveries) :
      Step s ⟨(receive platform settings call s.db).2,
        (deliveriesOfRows platform settings consumer call 0
          (selectedRows settings call s.db)).reverse ++ s.deliveries⟩
  | delete (s : LeasedQueue) (receiptHandle : String) (now : ℤ) (db : Database)
      (deleted : delete receiptHandle now s.db = .ok db) : Step s ⟨db, s.deliveries⟩
  | insert (s : LeasedQueue) (row : QueueRow) (pristine : row.Pristine)
      (unqueued : row.messageId ∉ s.db.queue.map QueueRow.messageId)
      (undelivered : deliveriesOf s.deliveries row.messageId = []) :
      Step s ⟨{ s.db with queue := s.db.queue ++ [row] }, s.deliveries⟩

/-- Any sequence of calls. -/
abbrev LeasedQueue.Steps : LeasedQueue → LeasedQueue → Prop :=
  Relation.ReflTransGen (LeasedQueue.Step platform settings)

/-- Nothing has been received yet; message identifiers are the primary key. -/
structure LeasedQueue.Unreceived (s : LeasedQueue) : Prop where
  unique : (s.db.queue.map QueueRow.messageId).Nodup
  pristine : ∀ row ∈ s.db.queue, row.Pristine
  undelivered : s.deliveries = []

end Deliveries

section Statement

/-- A later delivery of the same message follows this one. -/
def Superseded (deliveries : List Delivery) (delivery : Delivery) : Prop :=
  ∃ later earlier, deliveries = later ++ delivery :: earlier ∧
    ∃ other ∈ later, other.messageId = delivery.messageId

/-- Leases of one message do not overlap. -/
def LeasesDisjoint (deliveries : List Delivery) : Prop :=
  deliveries.Pairwise fun later earlier =>
    later.messageId = earlier.messageId → earlier.leaseUntil ≤ later.leasedAt

end Statement

section Receiving

variable {platform : Platform} {settings : QueueSettings} {consumer : ℕ} {call : ReceiveCall}

end Receiving

section Tracking

/-- A row holds the latest lease of its message and counts all of them. -/
structure QueueRow.Tracked (deliveries : List Delivery) (row : QueueRow) : Prop where
  count : row.deliveryCount = (deliveriesOf deliveries row.messageId).length
  receipt : row.deadLetteredAt = none →
    row.receiptHandle = (deliveriesOf deliveries row.messageId).head?.map Delivery.receiptHandle
  lease : row.deadLetteredAt = none →
    row.leaseUntil = (deliveriesOf deliveries row.messageId).head?.map Delivery.leaseUntil

structure Leased (settings : QueueSettings) (queue : List QueueRow) (deliveries : List Delivery) :
    Prop where
  unique : (queue.map QueueRow.messageId).Nodup
  rows : ∀ row ∈ queue, row.Tracked deliveries
  disjoint : LeasesDisjoint deliveries
  ordered : ∀ delivery ∈ deliveries, delivery.leasedAt ≤ delivery.leaseUntil
  bounded : ∀ messageId, (deliveriesOf deliveries messageId).length ≤ settings.maxDeliveries
  receipts : (deliveries.map Delivery.receiptHandle).Nodup

variable {settings : QueueSettings} {queue : List QueueRow} {deliveries : List Delivery}

theorem row_eq_of_messageId (hunique : (queue.map QueueRow.messageId).Nodup) {row other : QueueRow}
    (hrow : row ∈ queue) (hother : other ∈ queue) (hid : other.messageId = row.messageId) :
    other = row :=
  List.inj_on_of_nodup_map hunique hother hrow hid

/-- Changing the lease fields of rows keeps the identifiers. -/
theorem messageIds_map {change : QueueRow → QueueRow}
    (hchange : ∀ row, (change row).messageId = row.messageId) :
    (queue.map change).map QueueRow.messageId = queue.map QueueRow.messageId := by
  rw [List.map_map]
  exact List.map_congr_left fun row _ => hchange row

theorem messageIds_sweep (now : ℤ) :
    (queue.map (sweep settings now)).map QueueRow.messageId = queue.map QueueRow.messageId := by
  apply messageIds_map
  intro row
  unfold sweep
  split <;> rfl

/-- Rewriting rows that stay tracked. -/
theorem Leased.map (h : Leased settings queue deliveries) {change : QueueRow → QueueRow}
    (hid : ∀ row, (change row).messageId = row.messageId)
    (hrow : ∀ row ∈ queue, row.Tracked deliveries → (change row).Tracked deliveries) :
    Leased settings (queue.map change) deliveries where
  unique := by
    rw [messageIds_map hid]
    exact h.unique
  rows := by
    intro row hmem
    obtain ⟨old, hold, rfl⟩ := List.mem_map.mp hmem
    exact hrow old hold (h.rows old hold)
  disjoint := h.disjoint
  ordered := h.ordered
  bounded := h.bounded
  receipts := h.receipts

/-- A dead letter has no lease. -/
theorem QueueRow.Tracked.deadLetter {row : QueueRow} (h : row.Tracked deliveries) (now : ℤ) :
    (row.deadLetter now).Tracked deliveries where
  count := h.count
  receipt := by rintro ⟨⟩
  lease := by rintro ⟨⟩

theorem Leased.sweep (h : Leased settings queue deliveries) (now : ℤ) :
    Leased settings (queue.map (sweep settings now)) deliveries := by
  apply h.map
  · intro row
    unfold Schedule.sweep
    split <;> rfl
  · intro row _ htracked
    unfold Schedule.sweep
    split
    · exact htracked.deadLetter now
    · exact htracked

theorem Leased.deadLetter (h : Leased settings queue deliveries) (messageId : String) (now : ℤ) :
    Leased settings (updateMessage messageId (fun row => row.deadLetter now) queue) deliveries := by
  apply h.map
  · intro row
    split <;> rfl
  · intro row _ htracked
    split
    · exact htracked.deadLetter now
    · exact htracked

theorem Leased.filter (h : Leased settings queue deliveries) (keep : QueueRow → Bool) :
    Leased settings (queue.filter keep) deliveries where
  unique := h.unique.sublist ((List.filter_sublist).map _)
  rows row hrow := h.rows row (List.mem_of_mem_filter hrow)
  disjoint := h.disjoint
  ordered := h.ordered
  bounded := h.bounded
  receipts := h.receipts

/-- A row that may be leased at an instant. -/
structure Selectable (settings : QueueSettings) (queue : List QueueRow) (now : ℤ) (row : QueueRow) :
    Prop where
  queued : row ∈ queue
  alive : row.deadLetteredAt = none
  left : row.deliveryCount < settings.maxDeliveries
  free : row.leaseFree now = true

/-- Every earlier lease of a message that may be leased again has ended. -/
theorem Leased.ended (h : Leased settings queue deliveries) {row : QueueRow} {now : ℤ}
    (hrow : Selectable settings queue now row) {delivery : Delivery}
    (hdelivery : delivery ∈ deliveriesOf deliveries row.messageId) : delivery.leaseUntil ≤ now := by
  have hlease := (h.rows row hrow.queued).lease hrow.alive
  have hfree := hrow.free
  cases hhistory : deliveriesOf deliveries row.messageId with
  | nil =>
    rw [hhistory] at hdelivery
    cases hdelivery
  | cons latest earlier =>
    rw [hhistory] at hlease hdelivery
    simp only [List.head?_cons, Option.map_some] at hlease
    have hlatest : latest.leaseUntil ≤ now := by
      simpa [QueueRow.leaseFree, hlease] using hfree
    rcases List.mem_cons.mp hdelivery with rfl | hearlier
    · exact hlatest
    · have hdisjoint : (deliveriesOf deliveries row.messageId).Pairwise fun later earlier =>
          later.messageId = earlier.messageId → earlier.leaseUntil ≤ later.leasedAt :=
        h.disjoint.sublist List.filter_sublist
      have hsame : ∀ d ∈ deliveriesOf deliveries row.messageId, d.messageId = row.messageId := by
        intro d hd
        simpa using (List.mem_filter.mp hd).2
      have hmem : ∀ d ∈ latest :: earlier, d ∈ deliveriesOf deliveries row.messageId := by
        intro d hd
        rwa [hhistory]
      rw [hhistory] at hdisjoint
      have hpair := List.rel_of_pairwise_cons hdisjoint hearlier
        ((hsame _ (hmem _ (by simp))).trans (hsame _ (hmem _ (by simp [hearlier]))).symm)
      have hordered := h.ordered latest (List.mem_of_mem_filter (hmem latest (by simp)))
      omega

theorem deliveriesOf_cons_self {delivery : Delivery} :
    deliveriesOf (delivery :: deliveries) delivery.messageId =
      delivery :: deliveriesOf deliveries delivery.messageId := by
  simp [deliveriesOf]

theorem deliveriesOf_cons_of_ne {delivery : Delivery} {messageId : String}
    (h : delivery.messageId ≠ messageId) :
    deliveriesOf (delivery :: deliveries) messageId = deliveriesOf deliveries messageId := by
  simp [deliveriesOf, h]

/-- One more lease. -/
theorem Leased.lease (h : Leased settings queue deliveries) {row : QueueRow} {now : ℤ}
    (hrow : Selectable settings queue now row) {delivery : Delivery}
    (hid : delivery.messageId = row.messageId) (hnow : now ≤ delivery.leasedAt)
    (hordered : delivery.leasedAt ≤ delivery.leaseUntil)
    (hfresh : delivery.receiptHandle ∉ deliveries.map Delivery.receiptHandle) :
    Leased settings (updateMessage row.messageId
      (fun r => r.lease delivery.receiptHandle delivery.leaseUntil) queue)
      (delivery :: deliveries) := by
  have hcount := (h.rows row hrow.queued).count
  refine ⟨?_, ?_, ?_, ?_, ?_, ?_⟩
  · unfold updateMessage
    rw [messageIds_map]
    · exact h.unique
    · intro r
      split <;> rfl
  · intro r hr
    obtain ⟨old, hold, rfl⟩ := List.mem_map.mp hr
    by_cases hsame : old.messageId = row.messageId
    · rw [if_pos hsame]
      obtain rfl := row_eq_of_messageId h.unique hrow.queued hold hsame
      have hhistory : deliveriesOf (delivery :: deliveries) old.messageId =
          delivery :: deliveriesOf deliveries old.messageId := by
        rw [← hid]
        exact deliveriesOf_cons_self
      refine ⟨?_, ?_, ?_⟩
      · show old.deliveryCount + 1 = (deliveriesOf (delivery :: deliveries) old.messageId).length
        rw [hhistory, List.length_cons, hcount]
      · intro _
        show some delivery.receiptHandle = _
        rw [show (old.lease delivery.receiptHandle delivery.leaseUntil).messageId = old.messageId
          from rfl, hhistory]
        rfl
      · intro _
        show some delivery.leaseUntil = _
        rw [show (old.lease delivery.receiptHandle delivery.leaseUntil).messageId = old.messageId
          from rfl, hhistory]
        rfl
    · rw [if_neg hsame]
      have hne : delivery.messageId ≠ old.messageId := by
        rw [hid]
        exact Ne.symm hsame
      have htracked := h.rows old hold
      refine ⟨?_, ?_, ?_⟩
      · rw [deliveriesOf_cons_of_ne hne]
        exact htracked.count
      · rw [deliveriesOf_cons_of_ne hne]
        exact htracked.receipt
      · rw [deliveriesOf_cons_of_ne hne]
        exact htracked.lease
  · refine List.pairwise_cons.mpr ⟨?_, h.disjoint⟩
    intro earlier hearlier hsame
    have hended : earlier.leaseUntil ≤ now := h.ended hrow (by
      simp [deliveriesOf, hearlier, ← hsame, hid])
    omega
  · intro d hd
    rcases List.mem_cons.mp hd with rfl | hold
    · exact hordered
    · exact h.ordered d hold
  · intro messageId
    by_cases hsame : delivery.messageId = messageId
    · rw [← hsame, deliveriesOf_cons_self, List.length_cons, hid]
      have := hrow.left
      omega
    · rw [deliveriesOf_cons_of_ne hsame]
      exact h.bounded messageId
  · rw [List.map_cons, List.nodup_cons]
    exact ⟨hfresh, h.receipts⟩

end Tracking

section Receives

variable {platform : Platform} {settings : QueueSettings} {consumer : ℕ} {call : ReceiveCall}
  {queue : List QueueRow} {deliveries : List Delivery}

theorem mem_updateMessage {messageId : String} {change : QueueRow → QueueRow} {row : QueueRow}
    (hrow : row ∈ queue) (hne : row.messageId ≠ messageId) :
    row ∈ updateMessage messageId change queue :=
  List.mem_map.mpr ⟨row, hrow, by rw [if_neg hne]⟩

theorem Selectable.update {row : QueueRow} {now : ℤ} (h : Selectable settings queue now row)
    {messageId : String} (change : QueueRow → QueueRow) (hne : row.messageId ≠ messageId) :
    Selectable settings (updateMessage messageId change queue) now row :=
  ⟨mem_updateMessage h.queued hne, h.alive, h.left, h.free⟩

/-- Leasing the selected rows one after another. -/
theorem leaseRows_leased {index : ℕ} {rows : List QueueRow} (h : Leased settings queue deliveries)
    (hrows : ∀ row ∈ rows, Selectable settings queue call.selectedAt row)
    (hdistinct : (rows.map QueueRow.messageId).Nodup)
    (hclock : ∀ i, call.selectedAt ≤ call.leasedAt i)
    (hdraws : ∀ i j, call.receipt i = call.receipt j → i = j)
    (hfresh : ∀ i, index ≤ i → call.receipt i ∉ deliveries.map Delivery.receiptHandle) :
    Leased settings (leaseRows platform settings call index rows queue).2
      ((deliveriesOfRows platform settings consumer call index rows).reverse ++ deliveries) := by
  induction rows generalizing index queue deliveries with
  | nil => exact h
  | cons row rest ih =>
    rw [List.map_cons, List.nodup_cons] at hdistinct
    have hother : ∀ other ∈ rest, other.messageId ≠ row.messageId := by
      intro other hmem heq
      exact hdistinct.1 (heq ▸ List.mem_map_of_mem hmem)
    have hlater : ∀ change : QueueRow → QueueRow, ∀ other ∈ rest,
        Selectable settings (updateMessage row.messageId change queue) call.selectedAt other :=
      fun change other hmem => (hrows other (by simp [hmem])).update change (hother other hmem)
    by_cases hintact : row.intact platform = true
    · have hordered : (deliveryOf settings consumer call index row).leasedAt ≤
          (deliveryOf settings consumer call index row).leaseUntil := by
        simp only [deliveryOf]
        omega
      have hleased : Leased settings (updateMessage row.messageId (fun r => r.lease
          (call.receipt index) (call.leasedAt index +
            1000000 * (settings.visibilityTimeoutSeconds : ℤ))) queue)
          (deliveryOf settings consumer call index row :: deliveries) :=
        h.lease (hrows row (by simp)) rfl (hclock index) hordered (hfresh index le_rfl)
      have hnew : ∀ i, index + 1 ≤ i → call.receipt i ∉
          (deliveryOf settings consumer call index row :: deliveries).map
            Delivery.receiptHandle := by
        intro i hi
        rw [List.map_cons, List.mem_cons, not_or]
        refine ⟨?_, hfresh i (by omega)⟩
        intro heq
        have := hdraws i index heq
        omega
      have hrest := ih hleased (hlater _) hdistinct.2 hnew
      simp only [leaseRows, deliveriesOfRows, hintact, if_true, List.reverse_cons,
        List.append_assoc, List.singleton_append]
      exact hrest
    · have hdead := h.deadLetter row.messageId (call.leasedAt index)
      have hnew : ∀ i, index + 1 ≤ i → call.receipt i ∉ deliveries.map Delivery.receiptHandle :=
        fun i hi => hfresh i (by omega)
      have hrest := ih hdead (hlater _) hdistinct.2 hnew
      simp only [leaseRows, deliveriesOfRows, hintact, Bool.false_eq_true, if_false]
      exact hrest

theorem selectedRows_selectable {db : Database} {row : QueueRow}
    (h : row ∈ selectedRows settings call db) :
    Selectable settings (db.queue.map (sweep settings call.sweptAt)) call.selectedAt row := by
  have hcandidate := List.mem_of_mem_take h
  rw [List.mem_insertionSort, List.mem_filter] at hcandidate
  obtain ⟨hqueued, hvisible⟩ := hcandidate
  simp only [QueueRow.visible, Bool.and_eq_true, Option.isNone_iff_eq_none, decide_eq_true_eq]
    at hvisible
  obtain ⟨⟨⟨⟨halive, -⟩, hleft⟩, hfree⟩, -⟩ := hvisible
  exact ⟨hqueued, halive, hleft, hfree⟩

theorem selectedRows_distinct {db : Database} (hunique : (db.queue.map QueueRow.messageId).Nodup) :
    ((selectedRows settings call db).map QueueRow.messageId).Nodup := by
  have hswept : ((db.queue.map (sweep settings call.sweptAt)).map QueueRow.messageId).Nodup := by
    rw [messageIds_sweep]
    exact hunique
  have hcandidates := hswept.sublist ((List.filter_sublist (p := fun row =>
    row.visible settings call.selectedAt && !call.locked row.messageId)).map QueueRow.messageId)
  have hsorted := ((List.perm_insertionSort deliveredBefore _).map QueueRow.messageId).nodup_iff.mpr
    hcandidates
  exact hsorted.sublist ((List.take_sublist _ _).map _)

/-- A receive call keeps the leases. -/
theorem receive_leased {db : Database}
    (h : Leased settings db.queue deliveries) (hticks : call.Ticks)
    (hfresh : call.DrawsFresh deliveries) :
    Leased settings (receive platform settings call db).2.queue
      ((deliveriesOfRows platform settings consumer call 0
        (selectedRows settings call db)).reverse ++ deliveries) := by
  have hnew : ∀ i, 0 ≤ i → call.receipt i ∉ deliveries.map Delivery.receiptHandle := by
    intro i _ hmem
    obtain ⟨delivery, hdelivery, heq⟩ := List.mem_map.mp hmem
    exact hfresh.2 i delivery hdelivery heq
  exact leaseRows_leased (h.sweep call.sweptAt) (fun row hrow => selectedRows_selectable hrow)
    (selectedRows_distinct h.unique) hticks hfresh.1 hnew

/-- Leasing other rows leaves a row alone and delivers nothing of its message. -/
theorem leaseRows_other {index : ℕ} {rows : List QueueRow} {row : QueueRow} (hrow : row ∈ queue)
    (hother : ∀ other ∈ rows, other.messageId ≠ row.messageId) :
    row ∈ (leaseRows platform settings call index rows queue).2 ∧
      ∀ delivery ∈ deliveriesOfRows platform settings consumer call index rows,
        delivery.messageId ≠ row.messageId := by
  induction rows generalizing index queue with
  | nil => exact ⟨hrow, by simp [deliveriesOfRows]⟩
  | cons first rest ih =>
    have hfirst : row.messageId ≠ first.messageId := Ne.symm (hother first (by simp))
    have hrest : ∀ other ∈ rest, other.messageId ≠ row.messageId :=
      fun other hmem => hother other (List.mem_cons_of_mem _ hmem)
    by_cases hintact : first.intact platform = true
    · simp only [leaseRows, deliveriesOfRows, hintact, if_true, List.mem_cons]
      obtain ⟨hkept, hdeliveries⟩ := ih (mem_updateMessage hrow hfirst) hrest
      refine ⟨hkept, ?_⟩
      rintro delivery (rfl | hmem)
      · exact Ne.symm hfirst
      · exact hdeliveries delivery hmem
    · simp only [leaseRows, deliveriesOfRows, hintact, Bool.false_eq_true, if_false]
      exact ih (mem_updateMessage hrow hfirst) hrest

/-- A dead letter stays where it is and is not delivered again. -/
theorem receive_deadLetter {db : Database} {row : QueueRow}
    (hunique : (db.queue.map QueueRow.messageId).Nodup) (hrow : row ∈ db.queue)
    (hdead : row.deadLetteredAt ≠ none) :
    row ∈ (receive platform settings call db).2.queue ∧
      ∀ delivery ∈ deliveriesOfRows platform settings consumer call 0
        (selectedRows settings call db), delivery.messageId ≠ row.messageId := by
  have hkept : sweep settings call.sweptAt row = row := by
    unfold sweep
    rw [if_neg]
    simp [hdead]
  have hswept : row ∈ db.queue.map (sweep settings call.sweptAt) :=
    List.mem_map.mpr ⟨row, hrow, hkept⟩
  have hother : ∀ other ∈ selectedRows settings call db, other.messageId ≠ row.messageId := by
    intro other hother hid
    have hselectable := selectedRows_selectable hother
    have hsweptUnique :
        ((db.queue.map (sweep settings call.sweptAt)).map QueueRow.messageId).Nodup := by
      rw [messageIds_sweep]
      exact hunique
    have hsame := row_eq_of_messageId hsweptUnique hswept hselectable.queued hid
    rw [hsame] at hselectable
    exact hdead hselectable.alive
  exact leaseRows_other hswept hother

end Receives

section Deletes

variable {settings : QueueSettings} {queue : List QueueRow} {deliveries : List Delivery}

theorem of_head_deliveriesOf {messageId : String} {delivery : Delivery}
    (h : (deliveriesOf deliveries messageId).head? = some delivery) :
    delivery ∈ deliveries ∧ delivery.messageId = messageId := by
  have hmem : delivery ∈ deliveriesOf deliveries messageId := List.mem_of_mem_head? h
  simpa [deliveriesOf] using hmem

/-- A lease that still acknowledges is the latest of its message and has not ended. -/
theorem Leased.acknowledged (h : Leased settings queue deliveries) {row : QueueRow}
    (hrow : row ∈ queue) {delivery : Delivery} (hdelivery : delivery ∈ deliveries) {now : ℤ}
    (hack : row.acknowledgedBy delivery.receiptHandle now = true) :
    (deliveriesOf deliveries row.messageId).head? = some delivery ∧ now < delivery.leaseUntil := by
  simp only [QueueRow.acknowledgedBy, Bool.and_eq_true, beq_iff_eq,
    Option.isNone_iff_eq_none] at hack
  obtain ⟨⟨hreceipt, halive⟩, hlease⟩ := hack
  have htracked := h.rows row hrow
  have hreceipts := htracked.receipt halive
  have hleases := htracked.lease halive
  cases hhead : (deliveriesOf deliveries row.messageId).head? with
  | none =>
    rw [hhead, hreceipt] at hreceipts
    cases hreceipts
  | some latest =>
    rw [hhead, Option.map_some] at hreceipts hleases
    rw [hreceipt] at hreceipts
    have hlatest := (of_head_deliveriesOf hhead).1
    have hsame : delivery = latest :=
      List.inj_on_of_nodup_map h.receipts hdelivery hlatest (Option.some.inj hreceipts)
    rw [hleases, ← hsame] at hlease
    exact ⟨by rw [hsame], by simpa using hlease⟩

/-- The latest delivery of a message is not superseded. -/
theorem Leased.not_superseded (h : Leased settings queue deliveries) {messageId : String}
    {delivery : Delivery} (hlatest : (deliveriesOf deliveries messageId).head? = some delivery) :
    ¬Superseded deliveries delivery := by
  rintro ⟨later, earlier, rfl, other, hother, hid⟩
  have hnodup : (later ++ delivery :: earlier).Nodup := h.receipts.of_map
  have hmessage : delivery.messageId = messageId := (of_head_deliveriesOf hlatest).2
  have hnonempty : other ∈ deliveriesOf later messageId := by
    simp [deliveriesOf, hother, hid, hmessage]
  have hhead : (deliveriesOf later messageId).head? = some delivery := by
    have happend : deliveriesOf (later ++ delivery :: earlier) messageId =
        deliveriesOf later messageId ++ deliveriesOf (delivery :: earlier) messageId :=
      List.filter_append ..
    rw [happend, List.head?_append_of_ne_nil _ (List.ne_nil_of_mem hnonempty)] at hlatest
    exact hlatest
  have hlater : delivery ∈ later := (of_head_deliveriesOf hhead).1
  exact (List.nodup_append.mp hnodup).2.2 delivery hlater delivery (by simp) rfl

/-- A stale receipt deletes nothing. -/
theorem Leased.delete_stale {db : Database} (h : Leased settings db.queue deliveries)
    {delivery : Delivery} (hdelivery : delivery ∈ deliveries) {now : ℤ}
    (hstale : Superseded deliveries delivery ∨ delivery.leaseUntil ≤ now) :
    ∃ failure, delete delivery.receiptHandle now db = .error failure := by
  have hnone : db.queue.any (fun row => row.acknowledgedBy delivery.receiptHandle now) = false := by
    rw [List.any_eq_false]
    intro row hrow hack
    obtain ⟨hlatest, hcurrent⟩ := h.acknowledged hrow hdelivery hack
    rcases hstale with hsuperseded | hexpired
    · exact h.not_superseded hlatest hsuperseded
    · omega
  unfold delete
  split
  · exact ⟨_, rfl⟩
  · rw [hnone]
    exact ⟨_, rfl⟩

theorem delete_leased {db db' : Database} (h : Leased settings db.queue deliveries)
    {receiptHandle : String} {now : ℤ} (hdelete : delete receiptHandle now db = .ok db') :
    Leased settings db'.queue deliveries := by
  unfold delete at hdelete
  split at hdelete
  · cases hdelete
  split at hdelete
  · obtain rfl := Except.ok.inj hdelete
    exact h.filter _
  · cases hdelete

theorem delete_deadLetter {db db' : Database} {row : QueueRow} (hrow : row ∈ db.queue)
    (hdead : row.deadLetteredAt ≠ none) {receiptHandle : String} {now : ℤ}
    (hdelete : delete receiptHandle now db = .ok db') : row ∈ db'.queue := by
  have hack : row.acknowledgedBy receiptHandle now = false := by
    simp [QueueRow.acknowledgedBy, hdead]
  unfold delete at hdelete
  split at hdelete
  · cases hdelete
  split at hdelete
  · obtain rfl := Except.ok.inj hdelete
    exact List.mem_filter.mpr ⟨hrow, by simp [hack]⟩
  · cases hdelete

/-- A new message. -/
theorem Leased.insert (h : Leased settings queue deliveries) {row : QueueRow}
    (hpristine : row.Pristine) (hunqueued : row.messageId ∉ queue.map QueueRow.messageId)
    (hundelivered : deliveriesOf deliveries row.messageId = []) :
    Leased settings (queue ++ [row]) deliveries where
  unique := by
    rw [List.map_append, List.nodup_append]
    refine ⟨h.unique, by simp, ?_⟩
    intro a ha b hb hab
    rw [List.map_singleton, List.mem_singleton] at hb
    exact hunqueued (by rwa [← hb, ← hab])
  rows := by
    intro other hother
    rcases List.mem_append.mp hother with hold | hnew
    · exact h.rows other hold
    · rw [List.mem_singleton.mp hnew]
      refine ⟨?_, ?_, ?_⟩
      · rw [hundelivered, hpristine.deliveryCount]
        rfl
      · rw [hundelivered, hpristine.receiptHandle]
        intro _
        rfl
      · rw [hundelivered, hpristine.leaseUntil]
        intro _
        rfl
  disjoint := h.disjoint
  ordered := h.ordered
  bounded := h.bounded
  receipts := h.receipts

end Deletes

section Runs

variable {platform : Platform} {settings : QueueSettings}

theorem LeasedQueue.Unreceived.leased {s : LeasedQueue} (h : s.Unreceived) :
    Leased settings s.db.queue s.deliveries := by
  obtain ⟨hunique, hpristine, hundelivered⟩ := h
  rw [hundelivered]
  refine ⟨hunique, ?_, List.Pairwise.nil, by simp, by simp [deliveriesOf], by simp⟩
  intro row hrow
  have hrow := hpristine row hrow
  exact ⟨by rw [hrow.deliveryCount]; rfl, by rw [hrow.receiptHandle]; intro _; rfl,
    by rw [hrow.leaseUntil]; intro _; rfl⟩

/-- A call keeps the leases. -/
theorem LeasedQueue.Step.leased {s s' : LeasedQueue} (hstep : Step platform settings s s')
    (h : Leased settings s.db.queue s.deliveries) : Leased settings s'.db.queue s'.deliveries := by
  cases hstep with
  | receive consumer call ticks fresh => exact receive_leased h ticks fresh
  | delete receiptHandle now db deleted => exact delete_leased h deleted
  | insert row pristine unqueued undelivered => exact h.insert pristine unqueued undelivered

theorem LeasedQueue.Steps.leased {s s' : LeasedQueue} (hsteps : Steps platform settings s s')
    (h : Leased settings s.db.queue s.deliveries) : Leased settings s'.db.queue s'.deliveries := by
  induction hsteps with
  | refl => exact h
  | tail _ hstep ih => exact hstep.leased ih

/-- A dead-lettered row is kept as it is and gets no delivery. -/
structure DeadLetterKept (row : QueueRow) (s s' : LeasedQueue) : Prop where
  queued : row ∈ s'.db.queue
  undelivered : deliveriesOf s'.deliveries row.messageId = deliveriesOf s.deliveries row.messageId

theorem LeasedQueue.Step.deadLetterKept {s s' : LeasedQueue} {row : QueueRow}
    (hstep : Step platform settings s s') (h : Leased settings s.db.queue s.deliveries)
    (hrow : row ∈ s.db.queue) (hdead : row.deadLetteredAt ≠ none) : DeadLetterKept row s s' := by
  cases hstep with
  | receive consumer call ticks fresh =>
    obtain ⟨hkept, hother⟩ := @receive_deadLetter platform settings consumer call s.db row
      h.unique hrow hdead
    refine ⟨hkept, ?_⟩
    have hnone : deliveriesOf (deliveriesOfRows platform settings consumer call 0
        (selectedRows settings call s.db)).reverse row.messageId = [] := by
      simpa [deliveriesOf] using hother
    show List.filter _ (_ ++ _) = _
    rw [List.filter_append]
    show deliveriesOf _ row.messageId ++ _ = _
    rw [hnone]
    rfl
  | delete receiptHandle now db deleted => exact ⟨delete_deadLetter hrow hdead deleted, rfl⟩
  | insert new pristine unqueued undelivered => exact ⟨List.mem_append_left _ hrow, rfl⟩

theorem LeasedQueue.Steps.deadLetterKept {s s' : LeasedQueue} {row : QueueRow}
    (hsteps : Steps platform settings s s') (h : Leased settings s.db.queue s.deliveries)
    (hrow : row ∈ s.db.queue) (hdead : row.deadLetteredAt ≠ none) : DeadLetterKept row s s' := by
  induction hsteps with
  | refl => exact ⟨hrow, rfl⟩
  | tail hsteps hstep ih =>
    have hnext := hstep.deadLetterKept (LeasedQueue.Steps.leased hsteps h) ih.queued hdead
    exact ⟨hnext.queued, hnext.undelivered.trans ih.undelivered⟩

theorem one_batch_legal : 1 ≤ 1 ∧ 1 ≤ 10 := by decide

theorem sixty_seconds_legal : 1 ≤ 60 ∧ 60 ≤ 3600 := by decide

theorem one_delivery_legal : 1 ≤ 1 ∧ 1 ≤ 100 := by decide

def onceSettings : QueueSettings :=
  ⟨1, 60, 1, one_batch_legal, sixty_seconds_legal, one_delivery_legal⟩

def onceId : String := "bfb30ff9ebce1c2e40f840b6979c8e2491ad0494502d2de4406eac0247908892"

def oncePlatform : Platform := ⟨fun _ => onceId, fun _ => none⟩

def onceWakeup : ScheduleWakeup := ⟨"t", onceId, 0⟩

def onceQueue : LeasedQueue where
  db := { Database.empty with
    queue := [⟨onceId, onceWakeup, serializeScheduleWakeup onceWakeup, 0, 0, none, none,
      none, 0⟩] }
  deliveries := []

def onceCall (now : ℤ) : ReceiveCall where
  sweptAt := now
  selectedAt := now
  leasedAt _ := now
  locked _ := false
  receipt i := "0c9bb5d2-9d0f-4b76-8c0e-0b9d1f4f2a11" ++ String.ofList (List.replicate i '0')

theorem onceCall_drawsFresh (now : ℤ) : (onceCall now).DrawsFresh [] := by
  refine ⟨?_, by simp⟩
  intro i j hij
  have hlength := congrArg String.length hij
  simp only [onceCall, String.length_append, String.length_ofList,
    List.length_replicate] at hlength
  omega

end Runs

end Dander.Schedule
