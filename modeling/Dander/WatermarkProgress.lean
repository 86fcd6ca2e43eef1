import Dander.Ownership
import Dander.PipelineDelivery
import Dander.SourceConnectors

/-!
# Watermarks over successive runs

A successful run commits the largest cursor among the rows that the source yields for the request
of its connector, or keeps the stored one where it is known to be a full read. So the watermark
moves backward exactly if nothing at or after it is read otherwise.
-/
namespace Dander.Runtime

open Interleaving

section Observation

variable {Record : Type} (port : RecordPort Record) (endpoint : Endpoint)

/-- The observation of all records of an extraction. -/
def observeAll : List Record → RecordObservation → Except RunError RecordObservation
  | [], observation => .ok observation
  | record :: rest, observation =>
    match drawRecord port endpoint observation record with
    | .error e => .error e
    | .ok (_, observation) => observeAll rest observation

/-- The cursor text of a record, by its index in the extraction. -/
def recordCursor (field : String) (index : ℕ) (record : Record) : Option String :=
  match normalizedRecord port endpoint index record with
  | .error _ => none
  | .ok normalized => port.cursorText field normalized

/-- Some record from an index on has a cursor at or after the boundary. -/
def ReadsFrom (field : String) (start : ℕ) (records : List Record) (boundary : String) : Prop :=
  ∃ index record cursor, records[index]? = some record ∧
    recordCursor port endpoint field (start + index) record = some cursor ∧ boundary ≤ cursor

def Reaches (observation : RecordObservation) (boundary : String) : Prop :=
  ∃ maximum, observation.maximumCursor = some maximum ∧ boundary ≤ maximum

variable {port endpoint} {records rest out : List Record} {record normalized : Record}
  {observation observation' : RecordObservation} {field boundary : String} {start : ℕ}

theorem drawAll_observeAll {fails : Bool}
    (h : drawAll port endpoint fails records observation = .ok (out, observation')) :
    fails = false ∧ observeAll port endpoint records observation = .ok observation' := by
  induction records generalizing observation out with
  | nil =>
    cases fails with
    | true => cases h
    | false => exact ⟨rfl, congrArg Except.ok (Prod.mk.inj (Except.ok.inj h)).2⟩
  | cons record rest ih =>
    unfold drawAll at h
    unfold observeAll
    cases hdraw : drawRecord port endpoint observation record with
    | error e =>
      rw [hdraw] at h
      cases h
    | ok drawn =>
      rw [hdraw] at h
      simp only at h
      cases hrest : drawAll port endpoint fails rest drawn.2 with
      | error e =>
        rw [hrest] at h
        cases h
      | ok others =>
        rw [hrest] at h
        obtain ⟨-, rfl⟩ := Prod.mk.inj (Except.ok.inj h)
        exact ih hrest

/-- One more record: counted, and its cursor taken into the maximum. -/
theorem drawRecord_spec (hfield : endpoint.incrementalCursor = some field)
    (h : drawRecord port endpoint observation record = .ok (normalized, observation')) :
    observation'.extracted = observation.extracted + 1 ∧ ∃ cursor,
      recordCursor port endpoint field observation.extracted record = some cursor ∧
        ∀ boundary, Reaches observation' boundary ↔
          Reaches observation boundary ∨ boundary ≤ cursor := by
  unfold drawRecord at h
  unfold recordCursor
  cases hnormalized : normalizedRecord port endpoint observation.extracted record with
  | error e =>
    rw [hnormalized] at h
    cases h
  | ok normal =>
    rw [hnormalized] at h
    simp only [RecordObservation.observe, hfield] at h
    simp only
    cases hcursor : port.cursorText field normal with
    | none =>
      rw [hcursor] at h
      cases h
    | some cursor =>
      rw [hcursor] at h
      obtain ⟨-, rfl⟩ := Prod.mk.inj (Except.ok.inj h)
      refine ⟨rfl, cursor, rfl, ?_⟩
      intro boundary
      cases hmaximum : observation.maximumCursor with
      | none => simp [Reaches, hmaximum]
      | some maximum => simp [Reaches, hmaximum]

theorem ReadsFrom.cons_iff : ReadsFrom port endpoint field start (record :: rest) boundary ↔
    (∃ cursor, recordCursor port endpoint field start record = some cursor ∧ boundary ≤ cursor) ∨
      ReadsFrom port endpoint field (start + 1) rest boundary := by
  constructor
  · rintro ⟨index, other, cursor, hindex, hcursor, hle⟩
    cases index with
    | zero =>
      obtain rfl := Option.some.inj hindex
      exact .inl ⟨cursor, hcursor, hle⟩
    | succ index =>
      refine .inr ⟨index, other, cursor, hindex, ?_, hle⟩
      rwa [Nat.add_right_comm, Nat.add_assoc]
  · rintro (⟨cursor, hcursor, hle⟩ | ⟨index, other, cursor, hindex, hcursor, hle⟩)
    · exact ⟨0, record, cursor, rfl, hcursor, hle⟩
    · refine ⟨index + 1, other, cursor, hindex, ?_, hle⟩
      rwa [Nat.add_right_comm, Nat.add_assoc] at hcursor

/-- The maximum reaches a boundary exactly if some record does. -/
theorem observeAll_spec (hfield : endpoint.incrementalCursor = some field)
    (h : observeAll port endpoint records observation = .ok observation') :
    observation'.extracted = observation.extracted + records.length ∧
      (∀ boundary, Reaches observation' boundary ↔ Reaches observation boundary ∨
        ReadsFrom port endpoint field observation.extracted records boundary) ∧
      (observation'.maximumCursor = none ↔
        observation.maximumCursor = none ∧ records = []) := by
  induction records generalizing observation with
  | nil =>
    obtain rfl := Except.ok.inj h
    refine ⟨rfl, fun boundary => ?_, by simp⟩
    have hnone : ¬ ReadsFrom port endpoint field observation.extracted [] boundary := by
      rintro ⟨index, record, cursor, hindex, -⟩
      cases hindex
    simp [hnone]
  | cons record rest ih =>
    unfold observeAll at h
    cases hdraw : drawRecord port endpoint observation record with
    | error e =>
      rw [hdraw] at h
      cases h
    | ok drawn =>
      obtain ⟨normalized, middle⟩ := drawn
      rw [hdraw] at h
      obtain ⟨hcount, cursor, hcursor, hreaches⟩ := drawRecord_spec hfield hdraw
      obtain ⟨hextracted, hboundary, hnone⟩ := ih h
      refine ⟨?_, ?_, ?_⟩
      · rw [hextracted, hcount, List.length_cons]
        omega
      · intro boundary
        rw [hboundary, hreaches, hcount, ReadsFrom.cons_iff, hcursor]
        simp [or_assoc]
      · rw [hnone]
        have hsome : Reaches middle cursor := (hreaches cursor).mpr (.inr le_rfl)
        obtain ⟨maximum, hmaximum, -⟩ := hsome
        simp [hmaximum]

theorem drawRecord_none (hfield : endpoint.incrementalCursor = none)
    (h : drawRecord port endpoint observation record = .ok (normalized, observation')) :
    observation'.maximumCursor = observation.maximumCursor := by
  unfold drawRecord at h
  cases hnormalized : normalizedRecord port endpoint observation.extracted record with
  | error e =>
    rw [hnormalized] at h
    cases h
  | ok normal =>
    rw [hnormalized] at h
    simp only [RecordObservation.observe, hfield] at h
    obtain ⟨-, rfl⟩ := Prod.mk.inj (Except.ok.inj h)
    rfl

theorem observeAll_none (hfield : endpoint.incrementalCursor = none)
    (h : observeAll port endpoint records observation = .ok observation') :
    observation'.maximumCursor = observation.maximumCursor := by
  induction records generalizing observation with
  | nil =>
    obtain rfl := Except.ok.inj h
    rfl
  | cons record rest ih =>
    unfold observeAll at h
    cases hdraw : drawRecord port endpoint observation record with
    | error e =>
      rw [hdraw] at h
      cases h
    | ok drawn =>
      obtain ⟨normalized, middle⟩ := drawn
      rw [hdraw] at h
      rw [ih h, drawRecord_none hfield hdraw]

end Observation

section Runs

variable {Record : Type}

/-- A source at the time of a run, and the committed watermarks. -/
structure Boundaries (Record : Type) where
  source : Source Record
  watermark : String → Option String

def Boundaries.commit (w : Boundaries Record) (endpoint cursor : String) : Boundaries Record :=
  { w with watermark := Function.update w.watermark endpoint (some cursor) }

/-- What the providers may answer: the extraction is what the source yields for the request of the
connector, unless it fails. -/
def sourceProviders (connector : Connector) :
    Machine (Op Record) (Reply Record) (Boundaries Record) where
  step
    | .historyStart, w, _, w' | .historyFinish .., w, _, w' | .verifyOwnership, w, _, w'
    | .claimFence _, w, _, w' | .drainTelemetry, w, _, w' | .write .., w, _, w' => w' = w
    | .getWatermark endpoint, w, reply, w' =>
      w' = w ∧ ∀ stored, reply = some stored → stored = w.watermark endpoint
    | .extract endpoint since, w, reply, w' =>
      w' = w ∧ (reply.fails = false → reply = connector.extractNamed w.source endpoint since)
    | .compareAndSet endpoint expected cursor, w, reply, w' =>
      match reply with
      | some true => w.watermark endpoint = expected ∧ w' = w.commit endpoint cursor
      | some false => w' = w
      | none => w' = w ∨ (w.watermark endpoint = expected ∧ w' = w.commit endpoint cursor)

variable (port : RecordPort Record) (connector : Connector)

/-- The boundary a run reads: none if the endpoint has no cursor. -/
def storedCursor (endpoint : Endpoint) (watermark : Option String) : Option String :=
  match endpoint.incrementalCursor with
  | none => none
  | some field => if field = "" then none else watermark

/-- What the source yields to a run. -/
def extraction (options : RunOptions) (source : Source Record) (endpoint : Endpoint)
    (watermark : Option String) : Extraction Record :=
  connector.extract source endpoint
    (if options.resumeFromWatermark then storedCursor endpoint watermark else none)

/-- What a successful run does to the watermark of an endpoint. -/
def Committed (options : RunOptions) (source : Source Record) (endpoint : Endpoint)
    (before after : Option String) : Prop :=
  ∃ observation, observeAll port endpoint (extraction connector options source endpoint before).records
      ⟨0, none⟩ = .ok observation ∧
    (observation.maximumCursor = none → after = before) ∧
    ∀ maximum, observation.maximumCursor = some maximum → before = storedCursor endpoint before ∧
      after = some (cursorToCommit options endpoint (storedCursor endpoint before) maximum)

variable {port connector} {options : RunOptions} {endpoint : Endpoint} {w : Boundaries Record}

abbrev Yields {α : Type} (connector : Connector) (Q : α → Boundaries Record → Prop)
    (p : Action Record α) (w : Boundaries Record) : Prop :=
  Ends (sourceProviders connector) Q p w

theorem attempt_yields {reply : Bool} : Yields connector (fun _ t => t = w) (attempt reply) w := by
  cases reply with
  | true => exact rfl
  | false => trivial

theorem verifyOwnership_yields :
    Yields connector (fun _ t => t = w) (verifyOwnership options) w := by
  unfold verifyOwnership
  split
  · refine Ends.call fun reply t hstep => ?_
    obtain rfl : t = w := hstep
    exact attempt_yields
  · exact rfl

theorem claimPublicationFence_yields :
    Yields connector (fun _ t => t = w) (claimPublicationFence options endpoint) w := by
  unfold claimPublicationFence
  split
  · split
    · refine Ends.call fun reply t hstep => ?_
      obtain rfl : t = w := hstep
      exact attempt_yields
    · trivial
  · exact rfl

theorem writeWithTelemetry_yields {batch : List Record} :
    Yields connector (fun _ t => t = w) (writeWithTelemetry endpoint batch) w := by
  refine Ends.call fun drained t hstep => ?_
  obtain rfl : t = w := hstep
  cases drained with
  | false => trivial
  | true =>
    refine Ends.call fun affected t hstep => ?_
    obtain rfl : t = _ := hstep
    cases affected with
    | none =>
      refine Ends.call fun _ _ _ => ?_
      trivial
    | some affected =>
      refine Ends.call fun drained t hstep => ?_
      obtain rfl : t = _ := hstep
      cases drained with
      | true => exact rfl
      | false => trivial

theorem writeBatch_yields {batch : List Record} :
    Yields connector (fun _ t => t = w) (writeBatch options endpoint batch) w := by
  refine Owned.bind verifyOwnership_yields fun _ t ht => ?_
  obtain rfl : t = w := ht
  exact writeWithTelemetry_yields

theorem writeBatches_yields {fails wroteBatch : Bool} {rest buffer : List Record} {affected : ℕ}
    {observation : RecordObservation} :
    Yields connector (fun written t => t = w ∧ fails = false ∧
        observeAll port endpoint rest observation = .ok written.2)
      (writeBatches port options endpoint fails rest buffer wroteBatch affected observation) w := by
  induction rest generalizing buffer wroteBatch affected observation w with
  | nil =>
    unfold writeBatches
    cases fails with
    | true => trivial
    | false =>
      simp only [Bool.false_eq_true, if_false]
      split
      · exact ⟨rfl, trivial, rfl⟩
      · refine Owned.bind writeBatch_yields fun written t ht => ?_
        exact ⟨ht, trivial, rfl⟩
  | cons record rest ih =>
    unfold writeBatches observeAll
    cases hdraw : drawRecord port endpoint observation record with
    | error e => trivial
    | ok drawn =>
      obtain ⟨normalized, middle⟩ := drawn
      simp only
      split
      · refine Owned.bind writeBatch_yields fun written t ht => ?_
        obtain rfl : t = w := ht
        exact ih
      · exact ih

theorem writeRecords_yields {stream : Extraction Record} :
    Yields connector (fun written t => t = w ∧ stream.fails = false ∧
        observeAll port endpoint stream.records ⟨0, none⟩ = .ok written.2)
      (writeRecords port options endpoint stream) w := by
  unfold writeRecords
  cases options.mode with
  | batched => exact writeBatches_yields
  | streaming =>
    refine Owned.bind verifyOwnership_yields fun _ t ht => ?_
    obtain rfl : t = w := ht
    cases hdrawn : drawAll port endpoint stream.fails stream.records ⟨0, none⟩ with
    | error e =>
      refine Ends.call fun drained t _ => ?_
      cases drained with
      | false => trivial
      | true =>
        refine Ends.call fun _ _ _ => ?_
        trivial
    | ok drawn =>
      obtain ⟨records, observation⟩ := drawn
      obtain ⟨hfails, hobserved⟩ := drawAll_observeAll hdrawn
      refine Owned.bind writeWithTelemetry_yields fun affected t ht => ?_
      exact ⟨ht, hfails, hobserved⟩
  | buffered =>
    cases hdrawn : drawAll port endpoint stream.fails stream.records ⟨0, none⟩ with
    | error e => trivial
    | ok drawn =>
      obtain ⟨records, observation⟩ := drawn
      obtain ⟨hfails, hobserved⟩ := drawAll_observeAll hdrawn
      refine Owned.bind writeBatch_yields fun affected t ht => ?_
      exact ⟨ht, hfails, hobserved⟩

theorem extracted_pos {records : List Record} {observation : RecordObservation} {maximum : String}
    (hobserved : observeAll port endpoint records ⟨0, none⟩ = .ok observation)
    (hmaximum : observation.maximumCursor = some maximum) : observation.extracted ≠ 0 := by
  cases hfield : endpoint.incrementalCursor with
  | none =>
    rw [observeAll_none hfield hobserved] at hmaximum
    cases hmaximum
  | some field =>
    obtain ⟨hextracted, -, hnone⟩ := observeAll_spec hfield hobserved
    have hrecords : records ≠ [] := by
      rintro rfl
      rw [hnone.mpr ⟨rfl, rfl⟩] at hmaximum
      cases hmaximum
    have hlength := List.length_pos_iff.mpr hrecords
    omega

theorem commitCursor_yields {stored : Option String} {records : List Record}
    {observation : RecordObservation}
    (hobserved : observeAll port endpoint records ⟨0, none⟩ = .ok observation) :
    Yields connector (fun _ t => t.source = w.source ∧
        (∀ name, name ≠ endpoint.name → t.watermark name = w.watermark name) ∧
        (observation.maximumCursor = none → t.watermark endpoint.name = w.watermark endpoint.name) ∧
        ∀ maximum, observation.maximumCursor = some maximum →
          w.watermark endpoint.name = stored ∧
            t.watermark endpoint.name = some (cursorToCommit options endpoint stored maximum))
      (commitCursor options endpoint stored observation) w := by
  unfold commitCursor
  cases hmaximum : observation.maximumCursor with
  | none => exact ⟨rfl, fun _ _ => rfl, fun _ => rfl, fun _ hsome => by cases hsome⟩
  | some maximum =>
    simp only [if_neg (extracted_pos hobserved hmaximum)]
    refine Owned.bind verifyOwnership_yields fun _ t ht => ?_
    obtain rfl : t = w := ht
    refine Ends.call fun committed u hstep => ?_
    cases committed with
    | none => trivial
    | some committed =>
      cases committed with
      | false => trivial
      | true =>
        obtain ⟨hstored, rfl⟩ : t.watermark endpoint.name = stored ∧ u = t.commit endpoint.name
          (cursorToCommit options endpoint stored maximum) := hstep
        refine ⟨rfl, ?_, ?_, ?_⟩
        · intro name hname
          exact Function.update_of_ne hname _ _
        · intro hnone
          cases hnone
        · intro other hother
          obtain rfl := Option.some.inj hother
          exact ⟨hstored, Function.update_self _ _ _⟩

theorem readWatermark_yields : Yields connector
    (fun stored t => t = w ∧ stored = storedCursor endpoint (w.watermark endpoint.name))
    (readWatermark endpoint) w := by
  unfold readWatermark storedCursor
  cases endpoint.incrementalCursor with
  | none => exact ⟨rfl, rfl⟩
  | some field =>
    by_cases hempty : field = ""
    · simp only [if_pos hempty]
      exact ⟨rfl, rfl⟩
    · simp only [if_neg hempty]
      refine Ends.call fun reply t hstep => ?_
      obtain ⟨rfl, hreply⟩ := hstep
      cases reply with
      | none => trivial
      | some stored => exact ⟨rfl, hreply stored rfl⟩

theorem runEndpoint_yields (hendpoint : endpoint ∈ connector.config.endpoints) :
    Yields connector (fun _ t => t.source = w.source ∧
        (∀ name, name ≠ endpoint.name → t.watermark name = w.watermark name) ∧
        Committed port connector options w.source endpoint (w.watermark endpoint.name)
          (t.watermark endpoint.name))
      (runEndpoint port options endpoint) w := by
  unfold runEndpoint
  refine Owned.bind readWatermark_yields fun stored t ⟨ht, hstored⟩ => ?_
  obtain rfl : t = w := ht
  refine Owned.bind verifyOwnership_yields fun _ t ht => ?_
  obtain rfl : t = _ := ht
  refine Owned.bind claimPublicationFence_yields fun _ t ht => ?_
  obtain rfl : t = _ := ht
  refine Ends.call fun stream u hstep => ?_
  obtain ⟨rfl, hstream⟩ : u = t ∧ (stream.fails = false → stream = connector.extractNamed t.source
    endpoint.name (if options.resumeFromWatermark then stored else none)) := hstep
  refine Owned.bind writeRecords_yields fun written v ⟨hv, hfails, hobserved⟩ => ?_
  obtain rfl : v = u := hv
  refine Owned.bind (commitCursor_yields hobserved) fun _ t ht => ?_
  obtain ⟨hsource, hothers, hkept, hcommitted⟩ := ht
  have hextraction := hstream hfails
  rw [connector.extractNamed_eq hendpoint, hstored] at hextraction
  refine ⟨hsource, hothers, written.2, ?_, hkept, ?_⟩
  · rw [hextraction] at hobserved
    exact hobserved
  · intro maximum hmaximum
    obtain ⟨hbefore, hafter⟩ := hcommitted maximum hmaximum
    rw [← hstored]
    exact ⟨hbefore, hafter⟩

/-- What a run that selects some of the endpoints does to all watermarks. -/
structure RanAll (port : RecordPort Record) (connector : Connector) (options : RunOptions)
    (endpoints : List Endpoint) (w t : Boundaries Record) : Prop where
  source : t.source = w.source
  others : ∀ name, (∀ endpoint ∈ endpoints, options.selects endpoint = true → endpoint.name ≠ name) →
    t.watermark name = w.watermark name
  committed : ∀ endpoint ∈ endpoints, options.selects endpoint = true →
    Committed port connector options w.source endpoint (w.watermark endpoint.name)
      (t.watermark endpoint.name)

variable {endpoints : List Endpoint} {completed : List EndpointRunResult}

theorem RanAll.nil : RanAll port connector options [] w w :=
  ⟨rfl, fun _ _ => rfl, fun _ hnone => by cases hnone⟩

/-- An endpoint that the run does not select. -/
theorem RanAll.skip {t : Boundaries Record} (h : RanAll port connector options endpoints w t)
    (hskipped : options.selects endpoint = false) :
    RanAll port connector options (endpoint :: endpoints) w t := by
  refine ⟨h.source, ?_, ?_⟩
  · intro name hname
    exact h.others name fun other hother => hname other (List.mem_cons_of_mem _ hother)
  · intro other hother hselected
    rcases List.mem_cons.mp hother with rfl | hrest
    · rw [hskipped] at hselected
      cases hselected
    · exact h.committed other hrest hselected

theorem RanAll.cons {t u : Boundaries Record} (h : RanAll port connector options endpoints t u)
    (hnames : ∀ other ∈ endpoints, endpoint.name ≠ other.name)
    (hselected : options.selects endpoint = true) (hsource : t.source = w.source)
    (hothers : ∀ name, name ≠ endpoint.name → t.watermark name = w.watermark name)
    (hcommitted : Committed port connector options w.source endpoint (w.watermark endpoint.name)
      (t.watermark endpoint.name)) :
    RanAll port connector options (endpoint :: endpoints) w u := by
  refine ⟨h.source.trans hsource, ?_, ?_⟩
  · intro name hname
    have hlater := h.others name fun other hother hother' =>
      hname other (List.mem_cons_of_mem _ hother) hother'
    have hne : name ≠ endpoint.name := (hname endpoint List.mem_cons_self hselected).symm
    exact hlater.trans (hothers name hne)
  · intro other hother hother'
    rcases List.mem_cons.mp hother with rfl | hrest
    · have hkept := h.others other.name fun later hlater _ => (hnames later hlater).symm
      rwa [hkept]
    · have hlater := h.committed other hrest hother'
      rw [hsource, hothers other.name (hnames other hrest).symm] at hlater
      exact hlater

theorem runEndpoints_yields (hendpoints : ∀ endpoint ∈ endpoints, endpoint ∈ connector.config.endpoints)
    (hunique : (endpoints.map Endpoint.name).Nodup) :
    Yields connector (fun outcome t => outcome.2 = none →
        RanAll port connector options endpoints w t)
      (runEndpoints port options endpoints completed) w := by
  induction endpoints generalizing completed w with
  | nil => exact fun _ => .nil
  | cons endpoint rest ih =>
    have hrest := fun other hother => hendpoints other (List.mem_cons_of_mem endpoint hother)
    rw [List.map_cons, List.nodup_cons] at hunique
    have hnames : ∀ other ∈ rest, endpoint.name ≠ other.name := by
      intro other hother heq
      exact hunique.1 (heq ▸ List.mem_map_of_mem hother)
    unfold runEndpoints
    split
    next hselected =>
      have htried : Yields connector
          (fun outcome t => ∀ result, outcome = Except.ok result → t.source = w.source ∧
            (∀ name, name ≠ endpoint.name → t.watermark name = w.watermark name) ∧
            Committed port connector options w.source endpoint (w.watermark endpoint.name)
              (t.watermark endpoint.name))
          ((runEndpoint port options endpoint >>= fun result => .ret (Except.ok result)).tryCatch
            (fun e => .ret (Except.error e))) w := by
        refine Owned.tryCatch ?_ fun e t (_ : True) => ?_
        · refine Owned.bind (runEndpoint_yields (hendpoints endpoint List.mem_cons_self))
            fun result t ht => ?_
          exact fun _ _ => ht
        · rintro result ⟨⟩
      refine Owned.bind htried fun outcome t ht => ?_
      cases outcome with
      | error e => exact fun hnone => by cases hnone
      | ok result =>
        obtain ⟨hsource, hothers, hcommitted⟩ := ht result rfl
        refine Owned.weaken (ih hrest hunique.2) fun outcome u hran hnone => ?_
        exact (hran hnone).cons hnames hselected hsource hothers hcommitted
    next hselected =>
      refine Owned.weaken (ih hrest hunique.2) fun outcome u hran hnone => ?_
      exact (hran hnone).skip (Bool.not_eq_true _ ▸ hselected)

theorem finishHistory_yields {succeeded : Bool} : Yields connector (fun _ t => t = w)
    (finishHistory options completed succeeded) w := by
  unfold finishHistory
  split
  · refine Ends.call fun reply t hstep => ?_
    exact hstep
  · exact rfl

theorem startHistory_yields : Yields connector (fun _ t => t = w) (startHistory options) w := by
  unfold startHistory
  split
  · refine Ends.call fun reply t hstep => ?_
    obtain rfl : t = w := hstep
    exact attempt_yields
  · exact rfl

/-- A run that succeeds has committed what it observed of each endpoint it selects. -/
theorem run_yields : Yields connector
    (fun _ t => RanAll port connector options connector.config.endpoints w t)
    (run port options connector.config) w := by
  unfold run
  refine Owned.bind startHistory_yields fun _ t ht => ?_
  obtain rfl : t = w := ht
  refine Owned.bind (runEndpoints_yields (fun _ h => h) connector.config.names_unique)
    fun outcome u hran => ?_
  split
  · refine Owned.bind finishHistory_yields fun _ v _ => ?_
    trivial
  next hnone =>
    refine Owned.bind finishHistory_yields fun finished v hv => ?_
    obtain rfl : v = u := hv
    cases finished with
    | false => trivial
    | true => exact hran hnone

end Runs

section Histories

variable {Record : Type}

/-- A successful run: its options, what the source then was, and the watermarks around it. -/
structure RunStep (Record : Type) where
  options : RunOptions
  source : Source Record
  before : String → Option String
  after : String → Option String

/-- Successful runs one after the other, each from the watermarks that the last one left. -/
inductive Successive (port : RecordPort Record) (connector : Connector) :
    (String → Option String) → List (RunStep Record) → Prop
  | nil (watermark : String → Option String) : Successive port connector watermark []
  | cons {step : RunStep Record} {rest : List (RunStep Record)}
      {results : List EndpointRunResult} {source : Source Record}
      (ran : Alone (sourceProviders connector) (run port step.options connector.config)
        ⟨step.source, step.before⟩ (some (.ok results)) ⟨source, step.after⟩)
      (later : Successive port connector step.after rest) :
      Successive port connector step.before (step :: rest)

/-- No stored cursor is lost or replaced by a smaller one. -/
def NeverBackward (step : RunStep Record) : Prop :=
  ∀ name stored, step.before name = some stored →
    ∃ cursor, step.after name = some cursor ∧ stored ≤ cursor

/-- The stored cursor takes part in the maximum. -/
def KeepsStored (options : RunOptions) (endpoint : Endpoint) : Prop :=
  endpoint.cursorParam = some "" ∨ options.resumeFromWatermark = false

/-- Each endpoint that is read from a stored cursor keeps it, has no rows, or has a row at or after
it. -/
def ReachesStored (port : RecordPort Record) (connector : Connector) (step : RunStep Record) :
    Prop :=
  ∀ endpoint ∈ connector.config.endpoints, step.options.selects endpoint = true →
    ∀ field, endpoint.incrementalCursor = some field → field ≠ "" →
      ∀ stored, step.before endpoint.name = some stored →
        KeepsStored step.options endpoint ∨
          (extraction connector step.options step.source endpoint (some stored)).records = [] ∨
          ReadsFrom port endpoint field 0
            (extraction connector step.options step.source endpoint (some stored)).records stored

variable {port : RecordPort Record} {connector : Connector} {step : RunStep Record}
  {options : RunOptions} {endpoint : Endpoint} {source : Source Record} {after : Option String}

theorem le_cursorToCommit_iff {stored maximum : String} :
    stored ≤ cursorToCommit options endpoint (some stored) maximum ↔
      KeepsStored options endpoint ∨ stored ≤ maximum := by
  unfold cursorToCommit KeepsStored
  by_cases hparam : endpoint.cursorParam = some ""
  · simp [hparam]
  · cases hresume : options.resumeFromWatermark <;> simp [hparam]

/-- One endpoint: its watermark does not move backward exactly if it is reached. -/
theorem Committed.advances_iff {field stored : String}
    (h : Committed port connector options source endpoint (some stored) after)
    (hfield : endpoint.incrementalCursor = some field) (hnonempty : field ≠ "") :
    (∃ cursor, after = some cursor ∧ stored ≤ cursor) ↔
      KeepsStored options endpoint ∨
        (extraction connector options source endpoint (some stored)).records = [] ∨
        ReadsFrom port endpoint field 0
          (extraction connector options source endpoint (some stored)).records stored := by
  obtain ⟨observation, hobserved, hkept, hcommitted⟩ := h
  obtain ⟨-, hreaches, hnone⟩ := observeAll_spec hfield hobserved
  have hstored : storedCursor endpoint (some stored) = some stored := by
    simp [storedCursor, hfield, hnonempty]
  cases hmaximum : observation.maximumCursor with
  | none =>
    rw [hkept hmaximum, (hnone.mp hmaximum).2]
    simp
  | some maximum =>
    obtain ⟨-, hafter⟩ := hcommitted maximum hmaximum
    have hrecords : (extraction connector options source endpoint (some stored)).records ≠ [] := by
      intro hempty
      rw [hnone.mpr ⟨rfl, hempty⟩] at hmaximum
      cases hmaximum
    have hreads := hreaches stored
    simp only [Reaches, hmaximum, Option.some.injEq, exists_eq_left', reduceCtorEq, false_and,
      exists_false, false_or] at hreads
    rw [hafter, hstored]
    simp only [Option.some.injEq, exists_eq_left', hrecords, false_or]
    rw [le_cursorToCommit_iff, hreads]

/-- The watermark of an endpoint without a cursor stays, or there was none. -/
theorem Committed.without_cursor {stored : String}
    (h : Committed port connector options source endpoint (some stored) after)
    (hfield : ∀ field, endpoint.incrementalCursor = some field → field = "") :
    after = some stored := by
  obtain ⟨observation, hobserved, hkept, hcommitted⟩ := h
  cases hmaximum : observation.maximumCursor with
  | none => exact hkept hmaximum
  | some maximum =>
    obtain ⟨hbefore, -⟩ := hcommitted maximum hmaximum
    unfold storedCursor at hbefore
    cases hcursor : endpoint.incrementalCursor with
    | none => simp [hcursor] at hbefore
    | some field => simp [hcursor, hfield field hcursor] at hbefore

theorem RanAll.neverBackward_iff {w t : Boundaries Record}
    (h : RanAll port connector step.options connector.config.endpoints w t)
    (hsource : w.source = step.source) (hbefore : w.watermark = step.before)
    (hafter : t.watermark = step.after) :
    NeverBackward step ↔ ReachesStored port connector step := by
  have hcommitted : ∀ endpoint ∈ connector.config.endpoints,
      step.options.selects endpoint = true → ∀ stored, step.before endpoint.name = some stored →
      Committed port connector step.options step.source endpoint (some stored)
        (step.after endpoint.name) := by
    intro endpoint hendpoint hselected stored hstored
    have hcommitted := h.committed endpoint hendpoint hselected
    rwa [hsource, hbefore, hafter, hstored] at hcommitted
  constructor
  · intro hnever endpoint hendpoint hselected field hfield hnonempty stored hstored
    exact ((hcommitted endpoint hendpoint hselected stored hstored).advances_iff hfield
      hnonempty).mp (hnever endpoint.name stored hstored)
  · intro hreaches name stored hstored
    by_cases hname : ∀ endpoint ∈ connector.config.endpoints,
        step.options.selects endpoint = true → endpoint.name ≠ name
    · have hkept := h.others name hname
      rw [hbefore, hafter, hstored] at hkept
      exact ⟨stored, hkept, le_rfl⟩
    · push Not at hname
      obtain ⟨endpoint, hendpoint, hselected, rfl⟩ := hname
      have hthis := hcommitted endpoint hendpoint hselected stored hstored
      by_cases hfield : ∃ field, endpoint.incrementalCursor = some field ∧ field ≠ ""
      · obtain ⟨field, hfield, hnonempty⟩ := hfield
        exact (hthis.advances_iff hfield hnonempty).mpr
          (hreaches endpoint hendpoint hselected field hfield hnonempty stored hstored)
      · push Not at hfield
        exact ⟨stored, hthis.without_cursor hfield, le_rfl⟩

/-- In every sequence of successful runs of a connector, a run moves no watermark backward exactly
if each endpoint it reads from a stored cursor keeps that cursor, has no rows, or has a row at or
after it. -/
theorem watermarks_never_backward (Record : Type) (port : RecordPort Record) (connector : Connector)
    (watermark : String → Option String) (steps : List (RunStep Record))
    (runs : Successive port connector watermark steps) :
    ∀ step ∈ steps, NeverBackward step ↔ ReachesStored port connector step := by
  induction runs with
  | nil => simp
  | @cons step rest results source ran later ih =>
    intro other hother
    rcases List.mem_cons.mp hother with rfl | hrest
    · have hran := Owned.alone ran run_yields trivial results rfl
      exact hran.neverBackward_iff rfl rfl rfl
    · exact ih other hrest

/-- Providers that do not fail. -/
def providersExec (connector : Connector) : (o : Op Record) → Boundaries Record →
    Option (Reply Record o × Boundaries Record)
  | .getWatermark endpoint, w => some (some (w.watermark endpoint), w)
  | .extract endpoint since, w => some (connector.extractNamed w.source endpoint since, w)
  | .write _ batch, w => some (some batch.length, w)
  | .compareAndSet endpoint expected cursor, w =>
    if w.watermark endpoint = expected then some (some true, w.commit endpoint cursor)
    else some (some false, w)
  | .historyStart, w => some (true, w)
  | .historyFinish .., w => some (true, w)
  | .verifyOwnership, w => some (true, w)
  | .claimFence _, w => some (true, w)
  | .drainTelemetry, w => some (true, w)

theorem providersExec_step (o : Op Record) (w : Boundaries Record) (reply : Reply Record o)
    (t : Boundaries Record) (h : providersExec connector o w = some (reply, t)) :
    (sourceProviders connector).step o w reply t := by
  cases o with
  | getWatermark endpoint =>
    obtain ⟨rfl, rfl⟩ := Prod.mk.inj (Option.some.inj h)
    exact ⟨rfl, fun _ hstored => (Option.some.inj hstored).symm⟩
  | extract endpoint since =>
    obtain ⟨rfl, rfl⟩ := Prod.mk.inj (Option.some.inj h)
    exact ⟨rfl, fun _ => rfl⟩
  | compareAndSet endpoint expected cursor =>
    have h : (if w.watermark endpoint = expected then
        some ((some true : Option Bool), w.commit endpoint cursor) else some (some false, w)) =
        some (reply, t) := h
    by_cases hexpected : w.watermark endpoint = expected
    · rw [if_pos hexpected] at h
      obtain ⟨rfl, rfl⟩ := Prod.mk.inj (Option.some.inj h)
      exact ⟨hexpected, rfl⟩
    · rw [if_neg hexpected] at h
      obtain ⟨rfl, rfl⟩ := Prod.mk.inj (Option.some.inj h)
      rfl
  | _ => exact (Prod.mk.inj (Option.some.inj h)).2.symm

/-- A SuiteQL connector, which reads all rows in every run. -/
def netsuite (cursorParam : Option String) : Connector where
  engine := .netsuiteSuiteql
  datetimeLiteral := some
  config := ⟨"netsuite", [⟨"customers", some "last_modified_at", cursorParam, false⟩],
    List.nodup_singleton _⟩

theorem two_legal : 1 ≤ 2 ∧ 2 ≤ 100000 := by decide

def resumingOptions : RunOptions :=
  ⟨.buffered, 2, two_legal, true, none, false, false, false, false, false⟩

def rowsSource (rows : List String) : Source String := fun _ _ => ⟨rows, false⟩

/-- One run over some rows. -/
def customersRun (cursorParam : Option String) (rows : List String)
    (watermark : String → Option String) :
    Option (Except RunError (List EndpointRunResult) × Boundaries String) :=
  (run textPort resumingOptions (netsuite cursorParam).config).eval
    (providersExec (netsuite cursorParam)) ⟨rowsSource rows, watermark⟩

theorem customersRun_alone {cursorParam : Option String} {rows : List String}
    {watermark : String → Option String} {results : List EndpointRunResult} {t : Boundaries String}
    (h : customersRun cursorParam rows watermark = some (.ok results, t)) :
    Alone (sourceProviders (netsuite cursorParam))
      (run textPort resumingOptions (netsuite cursorParam).config) ⟨rowsSource rows, watermark⟩
      (some (.ok results)) ⟨t.source, t.watermark⟩ :=
  .of_eval providersExec_step h

/-- Two runs; the row with the largest cursor is deleted between them. -/
def deletedBetween (cursorParam : Option String) (watermark : Option String) : Bool :=
  ((customersRun cursorParam ["2026-01-03", "2026-01-04"] fun _ => none).bind fun first =>
    (customersRun cursorParam ["2026-01-03"] first.2.watermark).map fun second =>
      first.1.toBool && second.1.toBool &&
        decide (first.2.watermark "customers" = some "2026-01-04") &&
        decide (second.2.watermark "customers" = watermark)) = some true

theorem successive_of_deletedBetween (cursorParam watermark : Option String)
    (h : deletedBetween cursorParam watermark = true) : ∃ first second : RunStep String,
      Successive textPort (netsuite cursorParam) (fun _ => none) [first, second] ∧
      second.before "customers" = some "2026-01-04" ∧ second.after "customers" = watermark := by
  have hsome := of_decide_eq_true h
  obtain ⟨⟨firstOut, first⟩, hfirst, hsecond⟩ := Option.bind_eq_some_iff.mp hsome
  obtain ⟨⟨secondOut, second⟩, hsecond, hchecked⟩ := Option.map_eq_some_iff.mp hsecond
  simp only [Bool.and_eq_true, decide_eq_true_eq] at hchecked
  obtain ⟨⟨⟨hfirstOk, hsecondOk⟩, hbefore⟩, hafter⟩ := hchecked
  cases firstOut with
  | error e => cases hfirstOk
  | ok firstResults =>
    cases secondOut with
    | error e => cases hsecondOk
    | ok secondResults =>
      have hlast : Successive textPort (netsuite cursorParam) first.watermark
          [⟨resumingOptions, rowsSource ["2026-01-03"], first.watermark, second.watermark⟩] :=
        @Successive.cons _ _ _ ⟨_, _, _, _⟩ _ _ _ (customersRun_alone hsecond) (.nil _)
      have hboth : Successive textPort (netsuite cursorParam) (fun _ => none)
          [⟨resumingOptions, rowsSource ["2026-01-03", "2026-01-04"], fun _ => none,
            first.watermark⟩,
          ⟨resumingOptions, rowsSource ["2026-01-03"], first.watermark, second.watermark⟩] :=
        @Successive.cons _ _ _ ⟨_, _, _, _⟩ _ _ _ (customersRun_alone hfirst) hlast
      exact ⟨_, _, hboth, hbefore, hafter⟩

theorem watermarks_never_backward_recorded : ∃ first second : RunStep String,
    Successive textPort (netsuite (some "")) (fun _ => none) [first, second] ∧
      second.before "customers" = some "2026-01-04" ∧ NeverBackward second := by
  obtain ⟨first, second, runs, hbefore, -⟩ :=
    successive_of_deletedBetween (some "") (some "2026-01-04") (by decide +kernel)
  refine ⟨first, second, runs, hbefore, ?_⟩
  refine (watermarks_never_backward _ _ _ _ _ runs second (by simp)).mpr ?_
  intro endpoint hendpoint _ field _ _ stored _
  obtain rfl := List.mem_singleton.mp hendpoint
  exact .inl (.inl rfl)

/-- The rows of a full read may all be older than the watermark. -/
theorem full_read_moves_backward :
    ¬ ∀ (Record : Type) (port : RecordPort Record) (connector : Connector)
      (watermark : String → Option String) (steps : List (RunStep Record)),
      Successive port connector watermark steps → ∀ step ∈ steps, NeverBackward step := by
  intro hnever
  obtain ⟨first, second, runs, hbefore, hafter⟩ :=
    successive_of_deletedBetween none (some "2026-01-03") (by decide +kernel)
  obtain ⟨cursor, hcursor, hle⟩ := hnever _ _ _ _ _ runs second (by simp) _ _ hbefore
  rw [hafter, Option.some.injEq] at hcursor
  subst hcursor
  revert hle
  decide +kernel

end Histories

end Dander.Runtime
