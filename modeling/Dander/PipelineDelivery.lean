import Dander.PipelineRunner

/-!
# At-least-once delivery

The source keeps its records between runs and only gains records at or after every
cursor delivered so far; given a boundary it yields at least the records from there
on. Whatever fails or is cut in whichever run, a record below the committed watermark
has been delivered, and a run that completes has delivered all that was there.
-/
namespace Dander.Runtime

open Interleaving

variable {Record : Type}

/-- The source's records, the committed watermarks, and the history of every record that
was handed to a writer call that succeeded. -/
structure World (Record : Type) where
  records : String → List Record
  watermark : String → Option String
  delivered : String → List Record

def World.deliver (w : World Record) (endpoint : String) (batch : List Record) : World Record :=
  { w with delivered := Function.update w.delivered endpoint (w.delivered endpoint ++ batch) }

def World.commit (w : World Record) (endpoint cursor : String) : World Record :=
  { w with watermark := Function.update w.watermark endpoint (some cursor) }

/-- Runs keep the source's records and never take a delivery back. -/
def World.Le (a b : World Record) : Prop :=
  b.records = a.records ∧ ∀ name, a.delivered name ⊆ b.delivered name

theorem World.Le.refl (w : World Record) : w.Le w := ⟨rfl, fun _ => List.Subset.refl _⟩

theorem World.Le.trans {a b c : World Record} (hab : a.Le b) (hbc : b.Le c) : a.Le c :=
  ⟨hbc.1.trans hab.1, fun name => List.Subset.trans (hab.2 name) (hbc.2 name)⟩

section Providers

variable (key : String → Record → String)

/-- What the providers may answer. A call that raises has no effect, except that a
compare-and-set may have been applied before its answer was lost. -/
def providers : Machine (Op Record) (Reply Record) (World Record) where
  step
    | .historyStart, w, _, w' | .historyFinish .., w, _, w' | .verifyOwnership, w, _, w'
    | .claimFence _, w, _, w' | .drainTelemetry, w, _, w' => w' = w
    | .getWatermark endpoint, w, reply, w' =>
      w' = w ∧ ∀ stored, reply = some stored → stored = w.watermark endpoint
    | .extract endpoint since, w, reply, w' =>
      w' = w ∧ (reply.fails = false → ∀ r ∈ w.records endpoint,
        (∀ cursor, since = some cursor → cursor ≤ key endpoint r) → r ∈ reply.records)
    | .write endpoint batch, w, reply, w' =>
      match reply with
      | none => w' = w
      | some _ => w' = w.deliver endpoint batch
    | .compareAndSet endpoint expected cursor, w, reply, w' =>
      match reply with
      | some true => w.watermark endpoint = expected ∧ w' = w.commit endpoint cursor
      | some false => w' = w
      | none => w' = w ∨ (w.watermark endpoint = expected ∧ w' = w.commit endpoint cursor)

end Providers

section Delivery

variable (port : RecordPort Record) (key : String → Record → String) (config : SourceConfig)

/-- The normalized form of a source record was handed to a writer call that succeeded. -/
def Delivered (endpoint : Endpoint) (w : World Record) (record : Record) : Prop :=
  ∃ index normalized, normalizedRecord port endpoint index record = .ok normalized ∧
    normalized ∈ w.delivered endpoint.name

/-- A cursor text that some delivered record carries. -/
def DeliveredCursor (endpoint : Endpoint) (w : World Record) (cursor : String) : Prop :=
  ∃ field, endpoint.incrementalCursor = some field ∧
    ∃ normalized ∈ w.delivered endpoint.name, port.cursorText field normalized = some cursor

/-- The watermark is a delivered cursor and everything below it has been delivered. -/
structure Covered (endpoint : Endpoint) (w : World Record) : Prop where
  below : ∀ cursor, w.watermark endpoint.name = some cursor →
    ∀ r ∈ w.records endpoint.name, key endpoint.name r < cursor → Delivered port endpoint w r
  witnessed : ∀ cursor, w.watermark endpoint.name = some cursor →
    DeliveredCursor port endpoint w cursor

/-- Every endpoint stays covered. -/
def deliveryDiscipline : Discipline (World Record) where
  inv w := ∀ endpoint ∈ config.endpoints, Covered port key endpoint w
  le := World.Le
  refl := World.Le.refl
  trans _ _ _ := World.Le.trans

variable {port key config} {options : RunOptions}

theorem Delivered.mono {endpoint : Endpoint} {a b : World Record} {record : Record}
    (h : Delivered port endpoint a record) (hle : a.Le b) :
    Delivered port endpoint b record := by
  obtain ⟨index, normalized, hnorm, hmem⟩ := h
  exact ⟨index, normalized, hnorm, hle.2 _ hmem⟩

theorem DeliveredCursor.mono {endpoint : Endpoint} {a b : World Record} {cursor : String}
    (h : DeliveredCursor port endpoint a cursor)
    (hle : a.Le b) :
    DeliveredCursor port endpoint b cursor := by
  obtain ⟨field, hfield, normalized, hmem, hcursor⟩ := h
  exact ⟨field, hfield, normalized, hle.2 _ hmem, hcursor⟩

theorem Covered.mono {endpoint : Endpoint} {a b : World Record}
    (h : Covered port key endpoint a) (hle : a.Le b)
    (hwatermark : b.watermark endpoint.name = a.watermark endpoint.name) :
    Covered port key endpoint b := by
  refine ⟨?_, ?_⟩
  · intro cursor hcursor r hr hlt
    rw [hwatermark] at hcursor
    rw [hle.1] at hr
    exact (h.below cursor hcursor r hr hlt).mono hle
  · intro cursor hcursor
    rw [hwatermark] at hcursor
    exact (h.witnessed cursor hcursor).mono hle

/-- Two endpoints of one source with the same name are the same endpoint. -/
theorem SourceConfig.endpoint_eq {a b : Endpoint} (ha : a ∈ config.endpoints)
    (hb : b ∈ config.endpoints) (h : a.name = b.name) : a = b :=
  List.inj_on_of_nodup_map config.names_unique ha hb h

/-- Every record the source holds for the endpoint has been delivered. -/
def AllDelivered (port : RecordPort Record) (endpoint : Endpoint) (w : World Record) : Prop :=
  ∀ r ∈ w.records endpoint.name, Delivered port endpoint w r

theorem AllDelivered.mono {endpoint : Endpoint} {a b : World Record}
    (h : AllDelivered port endpoint a) (hle : a.Le b) :
    AllDelivered port endpoint b := by
  intro r hr
  rw [hle.1] at hr
  exact (h r hr).mono hle

theorem deliver_le (w : World Record) (name : String) (batch : List Record) :
    w.Le (w.deliver name batch) := by
  refine ⟨rfl, ?_⟩
  intro other r hr
  by_cases h : other = name
  · subst h
    simp [World.deliver, hr]
  · simpa [World.deliver, Function.update_of_ne h] using hr

theorem deliver_inv {w : World Record} (name : String) (batch : List Record)
    (h : (deliveryDiscipline port key config).inv w) :
    (deliveryDiscipline port key config).inv (w.deliver name batch) := by
  intro endpoint hendpoint
  exact (h endpoint hendpoint).mono (deliver_le w name batch) rfl

/-- Committing a delivered cursor is sound once the endpoint's records are delivered. -/
theorem commit_inv {w : World Record} {endpoint : Endpoint} {cursor : String}
    (hendpoint : endpoint ∈ config.endpoints) (hall : AllDelivered port endpoint w)
    (hcursor : DeliveredCursor port endpoint w cursor)
    (h : (deliveryDiscipline port key config).inv w) :
    (deliveryDiscipline port key config).inv (w.commit endpoint.name cursor) ∧
      w.Le (w.commit endpoint.name cursor) := by
  have hle : w.Le (w.commit endpoint.name cursor) := ⟨rfl, fun _ => List.Subset.refl _⟩
  refine ⟨?_, hle⟩
  intro other hother
  by_cases hname : other.name = endpoint.name
  · obtain rfl := SourceConfig.endpoint_eq hother hendpoint hname
    refine ⟨fun _ _ r hr _ => (hall r hr).mono hle, ?_⟩
    intro committed hcommitted
    have heq : cursor = committed := by simpa [World.commit] using hcommitted
    exact heq ▸ hcursor.mono hle
  · refine (h other hother).mono hle ?_
    simp [World.commit, Function.update_of_ne hname]

end Delivery

section Drawing

variable (port : RecordPort Record)

/-- Where a drawn record is: in the current batch or already delivered. -/
def Held (endpoint : Endpoint) (buffer : List Record) (w : World Record) (r : Record) : Prop :=
  r ∈ buffer ∨ r ∈ w.delivered endpoint.name

/-- What the runner knows of the records it has drawn so far. -/
structure Drawn (endpoint : Endpoint) (seen buffer : List Record)
    (observation : RecordObservation) (w : World Record) : Prop where
  records : ∀ r ∈ seen, ∃ index normalized,
    normalizedRecord port endpoint index r = .ok normalized ∧ Held endpoint buffer w normalized
  cursor : ∀ c, observation.maximumCursor = some c → ∃ field,
    endpoint.incrementalCursor = some field ∧ ∃ normalized, Held endpoint buffer w normalized ∧
      port.cursorText field normalized = some c

variable {port}
variable {endpoint : Endpoint} {seen buffer : List Record} {observation : RecordObservation}
variable {w w' : World Record}

theorem Drawn.nil : Drawn port endpoint [] [] ⟨0, none⟩ w :=
  ⟨by simp, by simp⟩

theorem Drawn.move {buffer' : List Record} (h : Drawn port endpoint seen buffer observation w)
    (move : ∀ r, Held endpoint buffer w r → Held endpoint buffer' w' r) :
    Drawn port endpoint seen buffer' observation w' := by
  refine ⟨?_, ?_⟩
  · intro r hr
    obtain ⟨index, normalized, hnorm, hheld⟩ := h.records r hr
    exact ⟨index, normalized, hnorm, move _ hheld⟩
  · intro c hc
    obtain ⟨field, hfield, normalized, hheld, hcursor⟩ := h.cursor c hc
    exact ⟨field, hfield, normalized, move _ hheld, hcursor⟩

/-- A written batch leaves the buffer empty. -/
theorem Drawn.flush (h : Drawn port endpoint seen buffer observation w)
    (hle : w.Le w')
    (hbatch : ∀ r ∈ buffer, r ∈ w'.delivered endpoint.name) :
    Drawn port endpoint seen [] observation w' :=
  h.move (fun r hheld => .inr (hheld.elim (hbatch r) (fun hmem => hle.2 _ hmem)))

theorem Drawn.delivered (h : Drawn port endpoint seen [] observation w) :
    (∀ r ∈ seen, Delivered port endpoint w r) ∧
      ∀ c, observation.maximumCursor = some c → DeliveredCursor port endpoint w c := by
  refine ⟨?_, ?_⟩
  · intro r hr
    obtain ⟨index, normalized, hnorm, hheld⟩ := h.records r hr
    exact ⟨index, normalized, hnorm, by simpa [Held] using hheld⟩
  · intro c hc
    obtain ⟨field, hfield, normalized, hheld, hcursor⟩ := h.cursor c hc
    exact ⟨field, hfield, normalized, by simpa [Held] using hheld, hcursor⟩

/-- The new maximum is the old one or the cursor of the record just seen. -/
theorem observe_spec {observation' : RecordObservation} {record : Record}
    (h : observation.observe port endpoint record = .ok observation') (c : String)
    (hc : observation'.maximumCursor = some c) :
    observation.maximumCursor = some c ∨ ∃ field,
      endpoint.incrementalCursor = some field ∧ port.cursorText field record = some c := by
  unfold RecordObservation.observe at h
  split at h
  · obtain rfl := Except.ok.inj h
    exact .inl hc
  next field hfield =>
    split at h
    · cases h
    next cursor hcursor =>
      obtain rfl := Except.ok.inj h
      dsimp only at hc
      split at hc
      next maximum hmaximum =>
        rcases max_choice maximum cursor with hmax | hmax
        · left
          rw [hmaximum, ← hc, hmax]
        · right
          refine ⟨field, hfield, ?_⟩
          rw [hcursor, ← hc, hmax]
      · right
        exact ⟨field, hfield, hcursor.trans hc⟩

theorem Drawn.snoc {observation' : RecordObservation} {record normalized : Record}
    (h : Drawn port endpoint seen buffer observation w)
    (hdraw : drawRecord port endpoint observation record = .ok (normalized, observation')) :
    Drawn port endpoint (seen ++ [record]) (buffer ++ [normalized]) observation' w := by
  unfold drawRecord at hdraw
  split at hdraw
  · cases hdraw
  next result hnorm =>
    split at hdraw
    · cases hdraw
    next observed hobserve =>
      obtain ⟨rfl, rfl⟩ := Prod.mk.inj (Except.ok.inj hdraw)
      have hmoved : Drawn port endpoint seen (buffer ++ [result]) observation w :=
        h.move (fun r hheld => hheld.imp (fun hmem => List.mem_append_left _ hmem) id)
      have hnew : Held endpoint (buffer ++ [result]) w result := .inl (by simp)
      refine ⟨?_, ?_⟩
      · intro r hr
        rcases List.mem_append.mp hr with hold | hlast
        · exact hmoved.records r hold
        · obtain rfl : r = record := by simpa using hlast
          exact ⟨_, result, hnorm, hnew⟩
      · intro c hc
        rcases observe_spec hobserve c hc with hold | ⟨field, hfield, hcursor⟩
        · exact hmoved.cursor c hold
        · exact ⟨field, hfield, result, hnew, hcursor⟩

theorem Drawn.drawAll {fails : Bool} {rest records : List Record}
    {observation' : RecordObservation} (h : Drawn port endpoint seen buffer observation w)
    (hdraw : drawAll port endpoint fails rest observation = .ok (records, observation')) :
    fails = false ∧
      Drawn port endpoint (seen ++ rest) (buffer ++ records) observation' w := by
  induction rest generalizing seen buffer observation records with
  | nil =>
    unfold Dander.Runtime.drawAll at hdraw
    split at hdraw
    · cases hdraw
    next hfails =>
      obtain ⟨rfl, rfl⟩ := Prod.mk.inj (Except.ok.inj hdraw)
      exact ⟨by simpa using hfails, by simpa using h⟩
  | cons record rest ih =>
    unfold Dander.Runtime.drawAll at hdraw
    split at hdraw
    · cases hdraw
    next normalized observed hfirst =>
      split at hdraw
      · cases hdraw
      next others last hrest =>
        obtain ⟨rfl, rfl⟩ := Prod.mk.inj (Except.ok.inj hdraw)
        obtain ⟨hfails, hdrawn⟩ := ih (h.snoc hfirst) hrest
        exact ⟨hfails, by simpa using hdrawn⟩

end Drawing

section Steps

variable {port : RecordPort Record} {key : String → Record → String} {config : SourceConfig}
variable {options : RunOptions} {endpoint : Endpoint} {w : World Record}

/-- What a piece of the runner guarantees when it returns; it may always raise. -/
abbrev Ensures {α : Type} (port : RecordPort Record) (key : String → Record → String)
    (config : SourceConfig) (action : Action Record α) (w : World Record)
    (post : α → World Record → Prop) : Prop :=
  Safe (providers key) (deliveryDiscipline port key config) post (fun _ _ => True) action w

theorem attempt_ensures (reply : Bool) {post : Unit → World Record → Prop} (h : post () w) :
    Ensures port key config (attempt reply) w post := by
  cases reply with
  | false => exact trivial
  | true => exact h

theorem verifyOwnership_ensures :
    Ensures port key config (verifyOwnership options) w (fun _ _ => True) := by
  unfold verifyOwnership
  split
  · refine Safe.read (fun _ _ _ h => h) ?_
    intro t _ _ reply _
    exact attempt_ensures reply trivial
  · exact trivial

theorem claimPublicationFence_ensures :
    Ensures port key config (claimPublicationFence options endpoint) w (fun _ _ => True) := by
  unfold claimPublicationFence
  split
  · split
    · refine Safe.read (fun _ _ _ h => h) ?_
      intro t _ _ reply _
      exact attempt_ensures reply trivial
    · exact trivial
  · exact trivial

/-- A write that returns has delivered its batch. -/
theorem writeWithTelemetry_ensures (batch : List Record) :
    Ensures port key config (writeWithTelemetry endpoint batch) w
      (fun _ t => ∀ r ∈ batch, r ∈ t.delivered endpoint.name) := by
  unfold writeWithTelemetry
  refine Safe.read (fun _ _ _ h => h) ?_
  intro t _ _ drained _
  cases drained with
  | false => exact trivial
  | true =>
    intro u _ hinv affected u' hstep
    cases affected with
    | none =>
      obtain rfl : u' = u := hstep
      refine ⟨hinv, World.Le.refl _, ?_⟩
      exact Safe.read (fun _ _ _ h => h) (fun _ _ _ _ _ => trivial)
    | some affected =>
      obtain rfl : u' = u.deliver endpoint.name batch := hstep
      refine ⟨deliver_inv _ _ hinv, deliver_le _ _ _, ?_⟩
      refine Safe.read (fun _ _ _ h => h) ?_
      intro v hv _ drained _
      cases drained with
      | false => exact trivial
      | true =>
        intro r hr
        exact hv.2 _ (by simp [World.deliver, hr])

theorem writeBatch_ensures (batch : List Record) :
    Ensures port key config (writeBatch options endpoint batch) w
      (fun _ t => ∀ r ∈ batch, r ∈ t.delivered endpoint.name) := by
  refine Safe.bind verifyOwnership_ensures ?_
  intro _ t _ _
  exact writeWithTelemetry_ensures batch

/-- What the writer's share of a run guarantees about the records it was to write. -/
def Written (port : RecordPort Record) (endpoint : Endpoint) (fails : Bool)
    (records : List Record) (result : ℕ × RecordObservation) (t : World Record) : Prop :=
  fails = false ∧ (∀ r ∈ records, Delivered port endpoint t r) ∧
    ∀ c, result.2.maximumCursor = some c → DeliveredCursor port endpoint t c

theorem Drawn.written {fails : Bool} {seen buffer : List Record}
    {observation : RecordObservation} {t : World Record} {affected : ℕ}
    (h : Drawn port endpoint seen buffer observation w) (hfails : fails = false) (hle : w.Le t)
    (hbatch : ∀ r ∈ buffer, r ∈ t.delivered endpoint.name) :
    Written port endpoint fails seen (affected, observation) t :=
  ⟨hfails, (h.flush hle hbatch).delivered⟩

/-- The batched loop: every record drawn before a batch boundary is delivered by it. -/
theorem writeBatches_ensures {fails : Bool} {rest seen buffer : List Record}
    {wroteBatch : Bool} {affected : ℕ} {observation : RecordObservation}
    (h : Drawn port endpoint seen buffer observation w) :
    Ensures port key config
      (writeBatches port options endpoint fails rest buffer wroteBatch affected observation) w
      (Written port endpoint fails (seen ++ rest)) := by
  induction rest generalizing seen buffer wroteBatch affected observation w with
  | nil =>
    unfold writeBatches
    split
    · exact trivial
    next hfails =>
      have hended : fails = false := by simpa using hfails
      rw [List.append_nil]
      split
      next hempty =>
        obtain ⟨hbuffer, -⟩ : buffer = [] ∧ wroteBatch = true := by simpa using hempty
        exact h.written hended (World.Le.refl w) (by simp [hbuffer])
      · refine Safe.bind (writeBatch_ensures buffer) ?_
        intro written t ht hbatch
        exact h.written hended ht hbatch
  | cons record rest ih =>
    unfold writeBatches
    split
    · exact trivial
    next normalized observed hdraw =>
      have hsnoc := h.snoc hdraw
      have hassoc : seen ++ record :: rest = (seen ++ [record]) ++ rest := by simp
      rw [hassoc]
      split
      · refine Safe.bind (writeBatch_ensures _) ?_
        intro written t ht hbatch
        exact ih (hsnoc.flush ht hbatch)
      · exact ih hsnoc

theorem writeRecords_ensures (stream : Extraction Record) :
    Ensures port key config (writeRecords port options endpoint stream) w
      (Written port endpoint stream.fails stream.records) := by
  unfold writeRecords
  split
  · exact writeBatches_ensures Drawn.nil
  · refine Safe.bind verifyOwnership_ensures ?_
    intro _ t _ _
    split
    next e _ =>
      refine Safe.read (fun _ _ _ h => h) ?_
      intro u _ _ drained _
      cases drained with
      | false => exact trivial
      | true => exact Safe.read (fun _ _ _ h => h) (fun _ _ _ _ _ => trivial)
    next records observation hdraw =>
      obtain ⟨hended, hdrawn⟩ := (Drawn.nil (w := t)).drawAll hdraw
      refine Safe.bind (writeWithTelemetry_ensures records) ?_
      intro affected u hu hbatch
      exact hdrawn.written hended hu hbatch
  · split
    · exact trivial
    next records observation hdraw =>
      obtain ⟨hended, hdrawn⟩ := (Drawn.nil (w := w)).drawAll hdraw
      refine Safe.bind (writeBatch_ensures records) ?_
      intro affected t ht hbatch
      exact hdrawn.written hended ht hbatch

/-- The stored boundary a run starts from: all below it is delivered, and it is itself a
delivered cursor. -/
def Boundary (port : RecordPort Record) (key : String → Record → String) (endpoint : Endpoint)
    (stored : Option String) (w : World Record) : Prop :=
  ∀ cursor, stored = some cursor → DeliveredCursor port endpoint w cursor ∧
    ∀ r ∈ w.records endpoint.name, key endpoint.name r < cursor → Delivered port endpoint w r

theorem Boundary.mono {stored : Option String} {t : World Record}
    (h : Boundary port key endpoint stored w) (hle : w.Le t) :
    Boundary port key endpoint stored t := by
  intro cursor hcursor
  obtain ⟨hwitness, hbelow⟩ := h cursor hcursor
  refine ⟨hwitness.mono hle, ?_⟩
  intro r hr hlt
  rw [hle.1] at hr
  exact (hbelow r hr hlt).mono hle

theorem readWatermark_ensures (hendpoint : endpoint ∈ config.endpoints) :
    Ensures port key config (readWatermark endpoint) w (Boundary port key endpoint) := by
  unfold readWatermark
  split
  · rintro cursor ⟨⟩
  · split
    · rintro cursor ⟨⟩
    · refine Safe.read (fun _ _ _ h => h.1) ?_
      intro t _ hinv reply hstep
      cases reply with
      | none => exact trivial
      | some stored =>
        have hstored : stored = t.watermark endpoint.name := hstep.2 stored rfl
        intro cursor hcursor
        have hcovered := hinv endpoint hendpoint
        rw [hstored] at hcursor
        exact ⟨hcovered.witnessed cursor hcursor, hcovered.below cursor hcursor⟩

/-- The committed cursor is the observed maximum or the boundary itself. -/
theorem cursorToCommit_cases (options : RunOptions) (endpoint : Endpoint)
    (stored : Option String) (maximum : String) :
    cursorToCommit options endpoint stored maximum = maximum ∨
      stored = some (cursorToCommit options endpoint stored maximum) := by
  unfold cursorToCommit
  split
  next boundary =>
    split
    · rcases max_choice boundary maximum with hmax | hmax
      · right
        rw [hmax]
      · left
        exact hmax
    · exact .inl rfl
  · exact .inl rfl

theorem commitCursor_ensures {stored : Option String} {observation : RecordObservation}
    (hendpoint : endpoint ∈ config.endpoints) (hall : AllDelivered port endpoint w)
    (hboundary : Boundary port key endpoint stored w)
    (hobserved : ∀ c, observation.maximumCursor = some c → DeliveredCursor port endpoint w c) :
    Ensures port key config (commitCursor options endpoint stored observation) w
      (fun _ t => AllDelivered port endpoint t) := by
  unfold commitCursor
  split
  · exact hall
  next maximum hmaximum =>
    split
    · exact hall
    · refine Safe.bind verifyOwnership_ensures ?_
      intro _ t ht _
      have hcursor : DeliveredCursor port endpoint w
          (cursorToCommit options endpoint stored maximum) := by
        rcases cursorToCommit_cases options endpoint stored maximum with heq | heq
        · rw [heq]
          exact hobserved maximum hmaximum
        · exact (hboundary _ heq).1
      intro u hu hinv reply u' hstep
      have hle : w.Le u := ht.trans hu
      obtain ⟨hcommit, hcommitLe⟩ := commit_inv hendpoint (hall.mono hle) (hcursor.mono hle) hinv
      match reply, hstep with
      | some true, hstep =>
        obtain ⟨-, rfl⟩ := hstep
        exact ⟨hcommit, hcommitLe, hall.mono (hle.trans hcommitLe)⟩
      | some false, hstep =>
        obtain rfl : u' = u := hstep
        exact ⟨hinv, World.Le.refl _, trivial⟩
      | none, hstep =>
        rcases hstep with rfl | ⟨-, rfl⟩
        · exact ⟨hinv, World.Le.refl _, trivial⟩
        · exact ⟨hcommit, hcommitLe, trivial⟩

/-- An endpoint that completes has delivered all its source holds: what lies below the
boundary was delivered before, and the rest was extracted and written now. -/
theorem runEndpoint_ensures (hendpoint : endpoint ∈ config.endpoints) :
    Ensures port key config (runEndpoint port options endpoint) w
      (fun _ t => AllDelivered port endpoint t) := by
  unfold runEndpoint
  refine Safe.bind (readWatermark_ensures hendpoint) ?_
  intro stored t _ hboundary
  refine Safe.bind verifyOwnership_ensures ?_
  intro _ t' ht' _
  refine Safe.bind claimPublicationFence_ensures ?_
  intro _ t'' ht'' _
  refine Safe.read (fun _ _ _ h => h.1) ?_
  intro u hu _ stream hstep
  have hboundary : Boundary port key endpoint stored u :=
    hboundary.mono ((ht'.trans ht'').trans hu)
  have hextracted := hstep.2
  refine Safe.bind (writeRecords_ensures stream) ?_
  intro written v hv hwritten
  obtain ⟨hended, hrecords, hcursor⟩ := hwritten
  have hall : AllDelivered port endpoint v := by
    intro r hr
    rw [hv.1] at hr
    by_cases hbelow : ∃ cursor, stored = some cursor ∧ key endpoint.name r < cursor
    · obtain ⟨cursor, hcursor, hlt⟩ := hbelow
      exact ((hboundary cursor hcursor).2 r hr hlt).mono hv
    · refine hrecords r (hextracted hended r hr ?_)
      intro cursor hsince
      have hstored : stored = some cursor := by
        by_cases hresume : options.resumeFromWatermark = true
        · simpa [hresume] using hsince
        · simp [hresume] at hsince
      exact not_lt.mp (fun hlt => hbelow ⟨cursor, hstored, hlt⟩)
  refine Safe.bind (commitCursor_ensures hendpoint hall (hboundary.mono hv) hcursor) ?_
  intro committed x _ hx
  exact hx

/-- Whether a run selects an endpoint. -/
def RunOptions.selects (options : RunOptions) (endpoint : Endpoint) : Bool :=
  (options.endpointNames.map (fun names => names.contains endpoint.name)).getD true

theorem runEndpoints_ensures {endpoints : List Endpoint} {completed : List EndpointRunResult}
    (hendpoints : ∀ endpoint ∈ endpoints, endpoint ∈ config.endpoints) :
    Ensures port key config (runEndpoints port options endpoints completed) w
      (fun result t => result.2 = none → ∀ endpoint ∈ endpoints,
        options.selects endpoint = true → AllDelivered port endpoint t) := by
  induction endpoints generalizing completed w with
  | nil =>
    intro _ endpoint hmem
    cases hmem
  | cons first rest ih =>
    have hrest := fun endpoint hmem => hendpoints endpoint (List.mem_cons_of_mem _ hmem)
    unfold runEndpoints
    split
    · have hfirst : Ensures port key config (runEndpoint port options first) w
          (fun _ t => AllDelivered port first t) :=
        runEndpoint_ensures (hendpoints first (by simp))
      have hcaught : Ensures port key config
          ((runEndpoint port options first >>= fun result => .ret (Except.ok result)).tryCatch
            (fun e => .ret (Except.error e))) w
          (fun (outcome : Except RunError EndpointRunResult) t =>
            (∃ result, outcome = .ok result) → AllDelivered port first t) := by
        refine Safe.tryCatch (Safe.bind hfirst ?_) ?_
        · intro result t _ hall _
          exact hall
        · rintro e t _ _ ⟨result, ⟨⟩⟩
      refine Safe.bind hcaught ?_
      intro outcome t _ houtcome
      cases outcome with
      | error e => rintro ⟨⟩
      | ok result =>
        refine (ih hrest).weaken ?_ (fun _ _ _ h => h)
        intro final u hu hfinal hnone endpoint hmem hselected
        rcases List.mem_cons.mp hmem with rfl | htail
        · exact (houtcome ⟨result, rfl⟩).mono hu
        · exact hfinal hnone endpoint htail hselected
    next hskip =>
      refine (ih hrest).weaken ?_ (fun _ _ _ h => h)
      intro final u _ hfinal hnone endpoint hmem hselected
      rcases List.mem_cons.mp hmem with rfl | htail
      · exact absurd hselected hskip
      · exact hfinal hnone endpoint htail hselected

theorem finishHistory_ensures (completed : List EndpointRunResult) (succeeded : Bool) :
    Ensures port key config (finishHistory options completed succeeded) w
      (fun _ _ => True) := by
  unfold finishHistory
  split
  · exact Safe.read (fun _ _ _ h => h) (fun _ _ _ _ _ => trivial)
  · exact trivial

theorem startHistory_ensures :
    Ensures port key config (startHistory options) w (fun _ _ => True) := by
  unfold startHistory
  split
  · refine Safe.read (fun _ _ _ h => h) ?_
    intro t _ _ reply _
    exact attempt_ensures reply trivial
  · exact trivial

theorem run_ensures :
    Ensures port key config (run port options config) w
      (fun _ t => ∀ endpoint ∈ config.endpoints, options.selects endpoint = true →
        AllDelivered port endpoint t) := by
  unfold run
  refine Safe.bind startHistory_ensures ?_
  intro _ t _ _
  refine Safe.bind (runEndpoints_ensures (fun _ h => h)) ?_
  intro outcome u _ houtcome
  split
  · refine Safe.bind (finishHistory_ensures _ _) ?_
    intro _ v _ _
    exact trivial
  next hnone =>
    refine Safe.bind (finishHistory_ensures _ _) ?_
    intro finished v hv _
    cases finished with
    | false => exact trivial
    | true =>
      intro endpoint hmem hselected
      exact (houtcome hnone endpoint hmem hselected).mono hv

end Steps

section Histories

variable (port : RecordPort Record) (key : String → Record → String) (config : SourceConfig)

/-- The worlds that runs and gains of the source can lead to. A run may stop anywhere, and
between runs the source only gains records at or after every delivered cursor. -/
inductive Reached : World Record → Prop
  | start (records : String → List Record) : Reached ⟨records, fun _ => none, fun _ => []⟩
  | gain {w : World Record} (before : Reached w) (name : String) (added : List Record)
      (later : ∀ endpoint ∈ config.endpoints, endpoint.name = name →
        ∀ r ∈ added, ∀ cursor, DeliveredCursor port endpoint w cursor → cursor ≤ key name r) :
      Reached { w with records := Function.update w.records name (w.records name ++ added) }
  | attempt {w w' : World Record} (before : Reached w) (options : RunOptions)
      (out : Option (Except RunError (List EndpointRunResult)))
      (ran : Alone (providers key) (run port options config) w out w') : Reached w'

variable {port key config}

theorem Reached.covered {w : World Record} (h : Reached port key config w) :
    (deliveryDiscipline port key config).inv w := by
  induction h with
  | start records =>
    intro endpoint _
    exact ⟨by rintro cursor ⟨⟩, by rintro cursor ⟨⟩⟩
  | @gain w before name added later ih =>
    intro endpoint hendpoint
    have hcovered := ih endpoint hendpoint
    refine ⟨?_, hcovered.witnessed⟩
    intro cursor hcursor r hr hlt
    by_cases hname : endpoint.name = name
    · simp only [hname, Function.update_self, List.mem_append] at hr
      rcases hr with hold | hnew
      · exact hcovered.below cursor hcursor r (hname ▸ hold) hlt
      · have hle := later endpoint hendpoint hname r hnew cursor
          (hcovered.witnessed cursor hcursor)
        rw [hname] at hlt
        exact absurd hle (not_le.mpr hlt)
    · simp only [Function.update_of_ne hname] at hr
      exact hcovered.below cursor hcursor r hr hlt
  | attempt before options out ran ih => exact (run_ensures.alone ran ih).1

/-- Whatever runs came before and however they ended, a run that completes has, together
with them, handed every record the source held when it started to a writer call that
succeeded. -/
theorem completed_run_delivered_all {w w' : World Record} {options : RunOptions}
    {results : List EndpointRunResult} (reached : Reached port key config w)
    (ran : Alone (providers key) (run port options config) w (some (.ok results)) w')
    (endpoint : Endpoint) (hendpoint : endpoint ∈ config.endpoints)
    (selected : options.selects endpoint = true) :
    ∀ r ∈ w.records endpoint.name, ∃ index normalized,
      normalizedRecord port endpoint index r = .ok normalized ∧
        normalized ∈ w'.delivered endpoint.name := by
  obtain ⟨-, hle, hpost⟩ := run_ensures.alone ran reached.covered
  intro r hr
  rw [← hle.1] at hr
  exact hpost results rfl endpoint hendpoint selected r hr

/-- Records that are their own cursor text, kept as they are. -/
def textPort : RecordPort String := ⟨fun _ _ record => .ok record, fun _ record => some record⟩

def ordersEndpoint : Endpoint := ⟨"orders", some "updated_at", none, false⟩

def ordersConfig : SourceConfig := ⟨"shop", [ordersEndpoint], by decide⟩

def plainOptions : RunOptions :=
  ⟨.batched, 2, by decide, true, none, false, false, false, false, false⟩

def ordersWorld : World String :=
  ⟨fun name => if name = "orders" then ["a", "b", "c"] else [], fun _ => none, fun _ => []⟩

def ordersAfter : World String :=
  ((ordersWorld.deliver "orders" ["a", "b"]).deliver "orders" ["c"]).commit "orders" "c"

/-- A first run over three records in batches of two. -/
theorem orders_run :
    Alone (providers (fun _ record => record)) (run textPort plainOptions ordersConfig)
      ordersWorld (some (.ok [⟨"orders", 3, 3, some "c"⟩])) ordersAfter := by
  refine .perform (r := (some none : Option (Option String))) ⟨rfl, by rintro _ ⟨⟩; rfl⟩ ?_
  refine .perform (r := (⟨["a", "b", "c"], false⟩ : Extraction String)) ⟨rfl, ?_⟩ ?_
  · intro _ r hr _
    exact hr
  refine .perform (r := true) rfl ?_
  refine .perform (o := Op.write "orders" ["a", "b"]) (r := (some 2 : Option ℕ))
    (t := ordersWorld.deliver "orders" ["a", "b"]) (by rfl) ?_
  refine .perform (r := true) rfl ?_
  refine .perform (r := true) rfl ?_
  refine .perform (o := Op.write "orders" ["c"]) (r := (some 1 : Option ℕ))
    (t := (ordersWorld.deliver "orders" ["a", "b"]).deliver "orders" ["c"]) (by rfl) ?_
  refine .perform (r := true) rfl ?_
  refine .perform (o := Op.compareAndSet "orders" none "c") (r := (some true : Option Bool))
    (t := ordersAfter) (by exact ⟨rfl, rfl⟩) ?_
  exact .ended _ (by decide)

theorem completed_run_delivered_all_orders :
    ∃ index normalized, normalizedRecord textPort ordersEndpoint index "b" = .ok normalized ∧
      normalized ∈ ordersAfter.delivered "orders" :=
  completed_run_delivered_all (.start _) orders_run ordersEndpoint (by decide) (by decide) "b"
    (by decide)

end Histories

end Dander.Runtime
