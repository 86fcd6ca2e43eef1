import Dander.OrchestrationCodecs

/-!
# Round trips of the codecs

Every record is read back from what it is written as, and what a decoder accepts is written as the
same bytes.
-/
namespace Dander.Codecs

open JsonText Python
open GraphStore (PayloadReader decodedBytes)
open Schedule (TriggerKind)

section Envelopes

variable (reader : PayloadReader)

/-- What an envelope that is written and read again needs of its members. -/
structure Enveloped (schema : String) (maxBytes : ℕ) (members : List (String × Json)) : Prop where
  nodup : (members.map Prod.fst).Nodup
  wellFormed : MembersWellFormed members
  printable : printableMembers members = true
  schema : lookup "schema" members = some (.str schema)
  short : 4 * width canonicalStyle (.obj members) ≤ maxBytes

variable {schema : String} {maxBytes : ℕ} {members : List (String × Json)}

theorem Enveloped.text_eq (h : Enveloped schema maxBytes members) :
    ∃ rest, text canonicalStyle (sortKeys (.obj members)) = '{' :: '"' :: rest := by
  have hne : sortedMembers members ≠ [] := by
    intro hempty
    have hfound := @lookup_sortedMembers "schema" _ h.nodup
    rw [hempty, h.schema] at hfound
    cases hfound
  obtain ⟨⟨key, value⟩, rest, hmembers⟩ := List.exists_cons_of_ne_nil hne
  rw [sortKeys_obj, hmembers]
  exact ⟨_, rfl⟩

/-- An envelope is written, and read again as its members in the order of their keys. -/
theorem Enveloped.load (h : Enveloped schema maxBytes members) (invalid : String) :
    ∃ data, canonicalJson (.obj members) = .ok data ∧
      loadEnvelope reader data schema maxBytes invalid = .ok (sortedMembers members) := by
  have hwf : WellFormed (sortKeys (.obj members)) :=
    wellFormed_sortKeys _ ⟨h.nodup, h.wellFormed⟩
  have hprint : JsonText.printable (sortKeys (.obj members)) = true := by
    rw [printable_sortKeys]
    exact h.printable
  obtain ⟨rest, htext⟩ := h.text_eq
  have hlength := length_text_le canonicalStyle (sortKeys (.obj members))
  rw [width_sortKeys] at hlength
  have hloads := loads_text canonicalStyle hwf hprint
  have hshort := h.short
  generalize hpayload : String.ofList (text canonicalStyle (sortKeys (.obj members))) = payload
    at hloads
  have hchars : payload.toList = '{' :: '"' :: rest := by
    rw [← hpayload, String.toList_ofList, htext]
  have hsize : payload.toUTF8.size ≤ maxBytes := by
    have hbytes := utf8ByteSize_le (text canonicalStyle (sortKeys (.obj members)))
    rw [hpayload] at hbytes
    have hsame : payload.toUTF8.size = payload.utf8ByteSize := rfl
    omega
  have hnonempty : payload.toUTF8.size ≠ 0 := by
    intro hzero
    have hempty : payload = "" := String.utf8ByteSize_eq_zero_iff.mp hzero
    rw [hempty] at hchars
    cases hchars
  refine ⟨payload.toUTF8, ?_, ?_⟩
  · rw [canonicalJson, dumps, if_pos hprint, hpayload]
    rfl
  · have hschema : lookup "schema" (sortedMembers members) = some (.str schema) := by
      rw [lookup_sortedMembers h.nodup, h.schema]
      rfl
    unfold loadEnvelope
    rw [if_neg (by omega), GraphStore.decodedBytes_payload hchars reader]
    dsimp only
    rw [hloads]
    simp only [sortKeys_obj, mapping, Execution.ok_bind, hschema, if_true]
    rfl

end Envelopes

section Canonical

variable {reader : PayloadReader} {builtins : Builtins} {sha256 : String → String}

theorem requireCanonical_eq_ok {data : ByteArray} {expected : Except DecodeError ByteArray}
    {invalid : String} (h : requireCanonical data expected invalid = .ok ()) :
    expected = .ok data := by
  unfold requireCanonical at h
  cases expected with
  | error cause => cases h
  | ok bytes =>
    dsimp only at h
    split at h
    next hsame => rw [hsame]
    · cases h

theorem requireCanonical_self (data : ByteArray) (invalid : String) :
    requireCanonical data (.ok data) invalid = .ok () := by
  rw [requireCanonical, if_pos rfl]

/-- An accepted wakeup is written as the bytes that it was read from. -/
theorem serializeScheduleWakeup_of_deserialize {data : ByteArray} {wakeup : ScheduleWakeup}
    (h : deserializeScheduleWakeup reader builtins data = .ok wakeup) :
    serializeScheduleWakeup wakeup = .ok data := by
  unfold deserializeScheduleWakeup at h
  obtain ⟨envelope, -, h⟩ := Execution.bind_eq_ok h
  obtain ⟨_, -, h⟩ := Execution.bind_eq_ok h
  obtain ⟨triggerId, -, h⟩ := Execution.bind_eq_ok h
  obtain ⟨_, -, h⟩ := Execution.bind_eq_ok h
  obtain ⟨planRevision, -, h⟩ := Execution.bind_eq_ok h
  obtain ⟨_, -, h⟩ := Execution.bind_eq_ok h
  obtain ⟨occurrence, -, h⟩ := Execution.bind_eq_ok h
  split at h
  · obtain ⟨⟨⟩, hcanonical, hwakeup⟩ := Execution.bind_eq_ok h
    obtain rfl := Except.ok.inj hwakeup
    exact requireCanonical_eq_ok hcanonical
  · cases h

/-- An accepted attempt is written as the bytes that it was read from. -/
theorem serializeAttemptRecord_of_deserialize {data : ByteArray} {record : AttemptRecord sha256}
    (h : deserializeAttemptRecord reader builtins sha256 data = .ok record) :
    serializeAttemptRecord record = .ok data := by
  unfold deserializeAttemptRecord at h
  obtain ⟨envelope, -, h⟩ := Execution.bind_eq_ok h
  obtain ⟨_, -, h⟩ := Execution.bind_eq_ok h
  obtain ⟨values, -, h⟩ := Execution.bind_eq_ok h
  obtain ⟨_, -, h⟩ := Execution.bind_eq_ok h
  obtain ⟨runId, -, h⟩ := Execution.bind_eq_ok h
  obtain ⟨_, -, h⟩ := Execution.bind_eq_ok h
  obtain ⟨attemptId, -, h⟩ := Execution.bind_eq_ok h
  obtain ⟨_, -, h⟩ := Execution.bind_eq_ok h
  obtain ⟨attemptNumber, -, h⟩ := Execution.bind_eq_ok h
  obtain ⟨_, -, h⟩ := Execution.bind_eq_ok h
  obtain ⟨planId, -, h⟩ := Execution.bind_eq_ok h
  obtain ⟨_, -, h⟩ := Execution.bind_eq_ok h
  obtain ⟨planRevision, -, h⟩ := Execution.bind_eq_ok h
  obtain ⟨_, -, h⟩ := Execution.bind_eq_ok h
  obtain ⟨backendId, -, h⟩ := Execution.bind_eq_ok h
  obtain ⟨_, -, h⟩ := Execution.bind_eq_ok h
  obtain ⟨decoded, -, h⟩ := Execution.bind_eq_ok h
  obtain ⟨_, -, h⟩ := Execution.bind_eq_ok h
  obtain ⟨createdAt, -, h⟩ := Execution.bind_eq_ok h
  split at h
  · obtain ⟨⟨⟩, hcanonical, hrecord⟩ := Execution.bind_eq_ok h
    obtain rfl := Except.ok.inj hrecord
    exact requireCanonical_eq_ok hcanonical
  · cases h

end Canonical

section RoundTrips

variable {builtins : Builtins}

/-- Python reads the text of a datetime back. -/
def Reads (builtins : Builtins) (value : DateTime) : Prop :=
  builtins.datetimeFromisoformat value.isoformat = some value

theorem datetime_timestamp (label : String) {value : DateTime} (hutc : value.isUtc = true)
    (hreads : Reads builtins value) :
    datetime builtins label (.str (timestamp value)) = .ok value := by
  have htext := timestamp_of_isUtc hutc
  have hlast : (timestamp value).toList.getLast? = some 'Z' := by
    rw [htext, List.getLast?_append, List.getLast?_singleton]
    rfl
  have hisoformat : String.ofList ((timestamp value).toList.dropLast ++ "+00:00".toList) =
      value.isoformat := by
    rw [htext, List.dropLast_concat, ← DateTime.isoformat_of_isUtc hutc, String.ofList_toList]
  unfold datetime
  simp only [string, Execution.ok_bind]
  rw [if_pos hlast, hisoformat, hreads]
  rfl

theorem optionalDatetime_timestamp (label : String) {value : Option DateTime}
    (hutc : ∀ moment ∈ value, moment.isUtc = true)
    (hreads : ∀ moment ∈ value, Reads builtins moment) :
    optionalDatetime builtins label (optionalJson (value.map timestamp)) = .ok value := by
  cases value with
  | none => rfl
  | some moment =>
    have hmoment := @datetime_timestamp builtins label _ (hutc moment rfl)
      (hreads moment rfl)
    show (datetime builtins label (.str (timestamp moment))).map some = _
    rw [hmoment]
    rfl

theorem optionalString_optionalJson (label : String) (value : Option String) :
    optionalString label (optionalJson value) = .ok value := by
  cases value with
  | none => rfl
  | some text => rfl

theorem triggerKind_value (label : String) (kind : TriggerKind) :
    triggerKind label (.str kind.value) = .ok kind := by
  cases kind <;> rfl

theorem sortKeys_optionalJson (value : Option String) :
    sortKeys (optionalJson value) = optionalJson value := by
  cases value with
  | none => rfl
  | some text => rfl

theorem repairWindow_of_lookup {members : List (String × Json)} (window : GraphRepairWindow)
    (hlength : members.length = 2)
    (hstart : lookup "start_date" members = some (.str window.startDate.isoformat))
    (hend : lookup "end_date" members = some (.str window.endDate.isoformat)) :
    repairWindow (.obj members) = .ok window := by
  unfold repairWindow
  simp only [hstart, hend, strictDate_isoformat]
  rw [dif_pos window.ordered, if_pos hlength]

theorem repairWindow_payload (window : GraphRepairWindow) :
    repairWindow (repairPayload window) = .ok window :=
  repairWindow_of_lookup window rfl rfl rfl

theorem repairWindow_sorted (window : GraphRepairWindow) :
    repairWindow (sortKeys (repairPayload window)) = .ok window := by
  have hnodup : ([("start_date", Json.str window.startDate.isoformat),
      ("end_date", .str window.endDate.isoformat)].map Prod.fst).Nodup := by
    simp
  refine repairWindow_of_lookup window ?_ ?_ ?_
  · exact (perm_sortedMembers _).length_eq
  · exact lookup_sortedMembers hnodup
  · exact lookup_sortedMembers hnodup

theorem RunTrigger.isUtc (trigger : RunTrigger) :
    ∀ moment ∈ trigger.scheduledOccurrence, moment.isUtc = true := by
  intro moment hmoment
  have hvalid := trigger.valid
  rw [Option.mem_def] at hmoment
  simp only [checkTrigger, hmoment, Bool.and_eq_true] at hvalid
  exact hvalid.1.1.2.2

/-- A trigger is read from members with its values. -/
theorem trigger_of_lookup {members : List (String × Json)} (decoded : RunTrigger)
    (hreads : ∀ moment ∈ decoded.scheduledOccurrence, Reads builtins moment)
    (hkind : lookup "kind" members = some (.str decoded.kind.value))
    (hid : lookup "trigger_id" members = some (.str decoded.triggerId))
    (hoccurrence : lookup "scheduled_occurrence" members =
      some (optionalJson (decoded.scheduledOccurrence.map timestamp)))
    (hreplay : lookup "replay_of_run_id" members = some (optionalJson decoded.replayOfRunId))
    (hwindow : (lookup "repair_window" members).mapM repairWindow = .ok decoded.repairWindow) :
    trigger builtins (.obj members) = .ok decoded := by
  unfold trigger
  simp only [mapping, member, hkind, hid, hoccurrence, hreplay, hwindow, Execution.ok_bind, string,
    triggerKind_value, optionalString_optionalJson,
    optionalDatetime_timestamp "scheduled_occurrence" decoded.isUtc hreads]
  rw [dif_pos decoded.valid]
  rfl

theorem nodup_triggerMembers (decoded : RunTrigger) :
    ((triggerMembers decoded).map Prod.fst).Nodup := by
  cases hwindow : decoded.repairWindow <;> simp [triggerMembers, hwindow]

theorem lookup_kind (decoded : RunTrigger) :
    lookup "kind" (triggerMembers decoded) = some (.str decoded.kind.value) := by
  simp [triggerMembers, lookup]

theorem lookup_triggerId (decoded : RunTrigger) :
    lookup "trigger_id" (triggerMembers decoded) = some (.str decoded.triggerId) := by
  simp [triggerMembers, lookup]

theorem lookup_occurrence (decoded : RunTrigger) :
    lookup "scheduled_occurrence" (triggerMembers decoded) =
      some (optionalJson (decoded.scheduledOccurrence.map timestamp)) := by
  simp [triggerMembers, lookup]

theorem lookup_replay (decoded : RunTrigger) :
    lookup "replay_of_run_id" (triggerMembers decoded) =
      some (optionalJson decoded.replayOfRunId) := by
  simp [triggerMembers, lookup]

theorem lookup_repair (decoded : RunTrigger) :
    lookup "repair_window" (triggerMembers decoded) = decoded.repairWindow.map repairPayload := by
  cases hwindow : decoded.repairWindow <;> simp [triggerMembers, hwindow, lookup]

/-- The payload of a trigger is read as the trigger. -/
theorem trigger_payload (decoded : RunTrigger)
    (hreads : ∀ moment ∈ decoded.scheduledOccurrence, Reads builtins moment) :
    trigger builtins (triggerPayload decoded) = .ok decoded := by
  refine trigger_of_lookup decoded hreads (lookup_kind decoded) (lookup_triggerId decoded)
    (lookup_occurrence decoded) (lookup_replay decoded) ?_
  rw [lookup_repair]
  cases decoded.repairWindow with
  | none => rfl
  | some window =>
    show (some <$> repairWindow (repairPayload window)) = _
    rw [repairWindow_payload]
    rfl

theorem trigger_sorted (decoded : RunTrigger)
    (hreads : ∀ moment ∈ decoded.scheduledOccurrence, Reads builtins moment) :
    trigger builtins (sortKeys (triggerPayload decoded)) = .ok decoded := by
  have hnodup := nodup_triggerMembers decoded
  rw [triggerPayload, sortKeys_obj]
  refine trigger_of_lookup decoded hreads ?_ ?_ ?_ ?_ ?_
  · rw [lookup_sortedMembers hnodup, lookup_kind]
    rfl
  · rw [lookup_sortedMembers hnodup, lookup_triggerId]
    rfl
  · rw [lookup_sortedMembers hnodup, lookup_occurrence, Option.map_some, sortKeys_optionalJson]
  · rw [lookup_sortedMembers hnodup, lookup_replay, Option.map_some, sortKeys_optionalJson]
  · rw [lookup_sortedMembers hnodup, lookup_repair]
    cases decoded.repairWindow with
    | none => rfl
    | some window =>
      show (some <$> repairWindow (sortKeys (repairPayload window))) = _
      rw [repairWindow_sorted]
      rfl

end RoundTrips

section Records

variable {reader : PayloadReader} {builtins : Builtins} {sha256 : String → String}

theorem length_of_opaqueId {text : String} (h : isOpaqueId text = true) :
    text.toList.length ≤ 128 := by
  unfold isOpaqueId at h
  split at h
  · cases h
  next first rest htext =>
    simp only [Bool.and_eq_true, decide_eq_true_eq] at h
    rw [htext, List.length_cons]
    omega

theorem length_of_sha256 {text : String} (h : isSha256 text = true) : text.toList.length = 64 := by
  simp only [isSha256, Bool.and_eq_true, decide_eq_true_eq] at h
  exact h.1

theorem length_of_portable {text : String} (h : isPortableId text = true) :
    text.toList.length ≤ 63 := (GraphStore.ascii_of_portable h).1

theorem length_timestamp_le {value : DateTime} (h : value.isUtc = true) :
    (timestamp value).toList.length ≤ 27 := by
  have hlocal := length_localText_le value
  rw [timestamp_of_isUtc h, List.length_append, List.length_singleton]
  omega

/-- The width of a text of at most so many characters. -/
theorem width_str_le {text : String} {length : ℕ} (h : text.toList.length ≤ length) :
    width canonicalStyle (.str text) ≤ 6 * length + 2 := by
  have htext : width canonicalStyle (.str text) ≤ 6 * text.toList.length + 2 :=
    length_stringText_le text
  omega

theorem ScheduleWakeup.enveloped (wakeup : ScheduleWakeup) :
    Enveloped scheduleWakeupSchema 8192 (wakeupPayload wakeup) := by
  have hvalid := wakeup.valid
  simp only [Bool.and_eq_true] at hvalid
  obtain ⟨⟨hid, hrevision⟩, hutc⟩ := hvalid
  refine ⟨?_, ?_, ?_, ?_, ?_⟩
  · simp [wakeupPayload]
  · simp [wakeupPayload, MembersWellFormed]
  · simp [wakeupPayload, printableMembers, JsonText.printable]
  · simp [wakeupPayload, lookup]
  · have hidWidth := width_str_le (length_of_portable hid)
    have hrevisionWidth := width_str_le (length_of_sha256 hrevision).le
    have htimeWidth := width_str_le (length_timestamp_le hutc)
    have hschemaWidth : width canonicalStyle (.str scheduleWakeupSchema) ≤ 6 * 40 + 2 :=
      width_str_le (by decide)
    have hkey : ∀ key : String, key.toList.length ≤ 20 →
        (stringText canonicalStyle.ensureAscii key).length ≤ 122 :=
      fun key h => (length_stringText_le key).trans (by omega)
    have hkeys := hkey "schema" (by decide)
    have hkeys' := hkey "trigger_id" (by decide)
    have hkeys'' := hkey "plan_revision" (by decide)
    have hkeys''' := hkey "scheduled_occurrence" (by decide)
    simp only [wakeupPayload, width, membersWidth] at *
    omega

/-- A wakeup is read back from the bytes that it is written as. -/
theorem deserializeScheduleWakeup_serialize (reader : PayloadReader) (wakeup : ScheduleWakeup)
    (hreads : Reads builtins wakeup.scheduledOccurrence) :
    ∃ data, serializeScheduleWakeup wakeup = .ok data ∧
      deserializeScheduleWakeup reader builtins data = .ok wakeup := by
  have hvalid := wakeup.valid
  have henveloped := wakeup.enveloped
  obtain ⟨data, hwritten, hloaded⟩ := henveloped.load reader wakeupInvalid
  refine ⟨data, hwritten, ?_⟩
  have hmember : ∀ key text, lookup key (wakeupPayload wakeup) = some (.str text) →
      member (sortedMembers (wakeupPayload wakeup)) key wakeupInvalid = .ok (.str text) := by
    intro key text hfound
    rw [member, lookup_sortedMembers henveloped.nodup, hfound]
    rfl
  have hutc : wakeup.scheduledOccurrence.isUtc = true := by
    simp only [Bool.and_eq_true] at hvalid
    exact hvalid.2
  have hid := hmember "trigger_id" wakeup.triggerId (by simp [wakeupPayload, lookup])
  have hrevision := hmember "plan_revision" wakeup.planRevision (by simp [wakeupPayload, lookup])
  have hoccurrence := hmember "scheduled_occurrence" (timestamp wakeup.scheduledOccurrence)
    (by simp [wakeupPayload, lookup])
  unfold deserializeScheduleWakeup
  simp only [hloaded, hid, hrevision, hoccurrence, Execution.ok_bind, string,
    datetime_timestamp "scheduled_occurrence" hutc hreads]
  rw [dif_pos hvalid]
  have hwritten' : serializeScheduleWakeup wakeup = .ok data := hwritten
  show (requireCanonical data (serializeScheduleWakeup wakeup) wakeupInvalid >>= fun _ =>
    pure wakeup) = _
  rw [hwritten', requireCanonical_self]
  rfl

theorem triggerMembers_written (decoded : RunTrigger) :
    MembersWellFormed (triggerMembers decoded) ∧
      printableMembers (triggerMembers decoded) = true := by
  have hoptional : ∀ value, WellFormed (optionalJson value) ∧
      JsonText.printable (optionalJson value) = true := by
    intro value
    cases value <;> exact ⟨trivial, rfl⟩
  have hrepair : ∀ window, WellFormed (repairPayload window) ∧
      JsonText.printable (repairPayload window) = true := by
    intro window
    simp [repairPayload, WellFormed, MembersWellFormed, JsonText.printable, printableMembers]
  rw [membersWellFormed_iff, printableMembers_iff, ← forall₂_and]
  intro pair hmem
  simp only [triggerMembers, List.mem_append, List.mem_cons, List.not_mem_nil, or_false,
    List.mem_map, Option.mem_toList] at hmem
  rcases hmem with (rfl | rfl | rfl | rfl) | ⟨window, -, rfl⟩
  · exact ⟨trivial, rfl⟩
  · exact ⟨trivial, rfl⟩
  · exact hoptional _
  · exact hoptional _
  · exact hrepair window

theorem width_optionalJson_le {value : Option String} {length : ℕ}
    (h : ∀ text ∈ value, text.toList.length ≤ length) :
    width canonicalStyle (optionalJson value) ≤ 6 * length + 4 := by
  cases value with
  | none =>
    show 4 ≤ _
    omega
  | some text =>
    have htext := width_str_le (h text rfl)
    show width canonicalStyle (.str text) ≤ _
    omega

theorem width_repairPayload_le (window : GraphRepairWindow) :
    width canonicalStyle (repairPayload window) ≤ 400 := by
  have hdate : ∀ date : Date, date.isoformat.toList.length ≤ 10 := by
    intro date
    obtain ⟨hyear, hmonth, hday⟩ := date.bounds
    rw [Date.isoformat_toList]
    simp only [List.length_append, List.length_cons, length_padded (by omega) hyear,
      length_padded (by omega) hmonth, length_padded (by omega) hday]
    omega
  have hstart := width_str_le (hdate window.startDate)
  have hend := width_str_le (hdate window.endDate)
  have hkeys : (stringText canonicalStyle.ensureAscii "start_date").length = 12 := by decide
  have hkeys' : (stringText canonicalStyle.ensureAscii "end_date").length = 10 := by decide
  simp only [repairPayload, width, membersWidth] at *
  omega

theorem width_triggerPayload_le (decoded : RunTrigger) :
    width canonicalStyle (triggerPayload decoded) ≤ 3000 := by
  have hvalid := decoded.valid
  simp only [checkTrigger, Bool.and_eq_true] at hvalid
  obtain ⟨⟨⟨hid, -⟩, hreplay⟩, -⟩ := hvalid
  have hidWidth := width_str_le (length_of_portable hid)
  have hkindWidth : width canonicalStyle (.str decoded.kind.value) ≤ 6 * 10 + 2 := by
    apply width_str_le
    cases decoded.kind <;> decide
  have hoccurrenceWidth : width canonicalStyle
      (optionalJson (decoded.scheduledOccurrence.map timestamp)) ≤ 6 * 27 + 4 := by
    apply width_optionalJson_le
    intro text htext
    obtain ⟨moment, hmoment, rfl⟩ := Option.mem_map.mp htext
    exact length_timestamp_le (decoded.isUtc moment hmoment)
  have hreplayWidth : width canonicalStyle (optionalJson decoded.replayOfRunId) ≤ 6 * 128 + 4 := by
    apply width_optionalJson_le
    intro text htext
    rw [Option.mem_def] at htext
    rw [htext] at hreplay
    exact length_of_opaqueId hreplay
  have hkind : (stringText canonicalStyle.ensureAscii "kind").length = 6 := by decide
  have htriggerId : (stringText canonicalStyle.ensureAscii "trigger_id").length = 12 := by decide
  have hoccurrence :
      (stringText canonicalStyle.ensureAscii "scheduled_occurrence").length = 22 := by
    decide
  have hreplayKey : (stringText canonicalStyle.ensureAscii "replay_of_run_id").length = 18 := by
    decide
  have hrepair : (stringText canonicalStyle.ensureAscii "repair_window").length = 15 := by decide
  unfold triggerPayload triggerMembers
  cases decoded.repairWindow with
  | none =>
    simp only [Option.toList_none, List.map_nil, List.append_nil, width, membersWidth] at *
    omega
  | some window =>
    have hwindow := width_repairPayload_le window
    simp only [Option.toList_some, List.map_cons, List.map_nil, List.cons_append, List.nil_append,
      width, membersWidth] at *
    omega

theorem AttemptRecord.digits_le (record : AttemptRecord sha256) :
    (Nat.toDigits 10 record.attemptNumber.natAbs).length ≤ 128 := by
  have hvalid := record.valid
  simp only [checkAttempt, Bool.and_eq_true, decide_eq_true_eq] at hvalid
  obtain ⟨⟨⟨⟨⟨⟨⟨-, hid⟩, -⟩, -⟩, -⟩, hpositive⟩, hidentity⟩, -⟩ := hvalid
  have hlength := length_of_opaqueId hid
  obtain ⟨n, hn⟩ := Int.eq_ofNat_of_zero_le (by omega : 0 ≤ record.attemptNumber)
  have hdigits : (toString record.attemptNumber).toList = Nat.toDigits 10 n := by
    rw [hn]
    show (toString n).toList = _
    simp
  rw [hidentity, attemptIdentity, String.toList_append, List.length_append] at hlength
  have htext : (s!"attempt-{record.attemptNumber}-").toList.length =
      9 + (Nat.toDigits 10 n).length := by
    have hpieces : (s!"attempt-{record.attemptNumber}-").toList =
        "attempt-".toList ++ (toString record.attemptNumber).toList ++ ['-'] := by
      rw [String.toList_append, String.toList_append]
      rfl
    rw [hpieces, hdigits, List.length_append, List.length_append]
    have hwhole : "attempt-".toList.length = 8 := by decide
    rw [hwhole, List.length_singleton]
    omega
  have hn' : record.attemptNumber.natAbs = n := by omega
  rw [hn']
  omega

theorem AttemptRecord.nodup (record : AttemptRecord sha256) :
    ((attemptMembers record).map Prod.fst).Nodup := by
  simp [attemptMembers]

theorem AttemptRecord.enveloped (record : AttemptRecord sha256) :
    Enveloped attemptRecordSchema 131072 (attemptPayload record) := by
  have hvalid := record.valid
  have hdigits := record.digits_le
  simp only [checkAttempt, Bool.and_eq_true, decide_eq_true_eq] at hvalid
  obtain ⟨⟨⟨⟨⟨⟨⟨hrun, hattempt⟩, hplan⟩, hbackend⟩, hrevision⟩, -⟩, -⟩, hutc⟩ := hvalid
  obtain ⟨hwellFormed, hprintable⟩ := triggerMembers_written record.trigger
  have hnodup := nodup_triggerMembers record.trigger
  have hmax : (Nat.toDigits 10 record.attemptNumber.natAbs).length ≤ maxDigits :=
    hdigits.trans (by decide)
  refine ⟨?_, ?_, ?_, ?_, ?_⟩
  · simp [attemptPayload]
  · simp [attemptPayload, attemptMembers, MembersWellFormed, WellFormed, triggerPayload,
      hwellFormed, hnodup]
  · simp [attemptPayload, attemptMembers, printableMembers, JsonText.printable, triggerPayload,
      hprintable, hmax]
  · simp [attemptPayload, lookup]
  · have hrunWidth := width_str_le (length_of_opaqueId hrun)
    have hattemptWidth := width_str_le (length_of_opaqueId hattempt)
    have hplanWidth := width_str_le (length_of_portable hplan)
    have hrevisionWidth := width_str_le (length_of_sha256 hrevision).le
    have hbackendWidth := width_str_le (length_of_opaqueId hbackend)
    have htimeWidth := width_str_le (length_timestamp_le hutc)
    have htriggerWidth := width_triggerPayload_le record.trigger
    have hnumberWidth := length_intText_le record.attemptNumber
    have hschemaWidth : width canonicalStyle (.str attemptRecordSchema) ≤ 6 * 40 + 2 :=
      width_str_le (by decide)
    have hkey : ∀ key : String, key.toList.length ≤ 20 →
        (stringText canonicalStyle.ensureAscii key).length ≤ 122 :=
      fun key h => (length_stringText_le key).trans (by omega)
    have hkeySchema := hkey "schema" (by decide)
    have hkeyRecord := hkey "record" (by decide)
    have hkeyRun := hkey "run_id" (by decide)
    have hkeyAttempt := hkey "attempt_id" (by decide)
    have hkeyNumber := hkey "attempt_number" (by decide)
    have hkeyPlan := hkey "plan_id" (by decide)
    have hkeyRevision := hkey "plan_revision" (by decide)
    have hkeyBackend := hkey "backend_id" (by decide)
    have hkeyTrigger := hkey "trigger" (by decide)
    have hkeyCreated := hkey "created_at" (by decide)
    simp only [attemptPayload, attemptMembers, width, membersWidth] at *
    omega

/-- An attempt is read back from the bytes that it is written as. -/
theorem deserializeAttemptRecord_serialize (reader : PayloadReader)
    (record : AttemptRecord sha256) (hcreated : Reads builtins record.createdAt)
    (hreads : ∀ moment ∈ record.trigger.scheduledOccurrence, Reads builtins moment) :
    ∃ data, serializeAttemptRecord record = .ok data ∧
      deserializeAttemptRecord reader builtins sha256 data = .ok record := by
  have hvalid := record.valid
  have henveloped := record.enveloped
  obtain ⟨data, hwritten, hloaded⟩ := henveloped.load reader attemptInvalid
  refine ⟨data, hwritten, ?_⟩
  have hrecord : member (sortedMembers (attemptPayload record)) "record" attemptInvalid =
      .ok (.obj (sortedMembers (attemptMembers record))) := by
    have hfound :
        lookup "record" (attemptPayload record) = some (.obj (attemptMembers record)) := by
      simp [attemptPayload, lookup]
    rw [member, lookup_sortedMembers henveloped.nodup, hfound]
    rfl
  have hmember : ∀ key value, lookup key (attemptMembers record) = some value →
      member (sortedMembers (attemptMembers record)) key attemptInvalid = .ok (sortKeys value) := by
    intro key value hfound
    rw [member, lookup_sortedMembers record.nodup, hfound]
    rfl
  have hrun := hmember "run_id" (.str record.runId) (by simp [attemptMembers, lookup])
  have hattempt := hmember "attempt_id" (.str record.attemptId) (by simp [attemptMembers, lookup])
  have hnumber := hmember "attempt_number" (.int record.attemptNumber)
    (by simp [attemptMembers, lookup])
  have hplan := hmember "plan_id" (.str record.planId) (by simp [attemptMembers, lookup])
  have hrevision := hmember "plan_revision" (.str record.planRevision)
    (by simp [attemptMembers, lookup])
  have hbackend := hmember "backend_id" (.str record.backendId) (by simp [attemptMembers, lookup])
  have htrigger := hmember "trigger" (triggerPayload record.trigger)
    (by simp [attemptMembers, lookup])
  have hcreatedAt := hmember "created_at" (.str (timestamp record.createdAt))
    (by simp [attemptMembers, lookup])
  have hutc : record.createdAt.isUtc = true := by
    simp only [checkAttempt, Bool.and_eq_true] at hvalid
    exact hvalid.2
  unfold deserializeAttemptRecord
  simp only [hloaded, hrecord, mapping, hrun, hattempt, hnumber, hplan, hrevision, hbackend,
    htrigger, hcreatedAt, Execution.ok_bind, string, integer, sortKeys_str, sortKeys_int,
    trigger_sorted record.trigger hreads, datetime_timestamp "created_at" hutc hcreated]
  rw [dif_pos hvalid]
  have hwritten' : serializeAttemptRecord record = .ok data := hwritten
  show (requireCanonical data (serializeAttemptRecord record) attemptInvalid >>= fun _ =>
    pure record) = _
  rw [hwritten', requireCanonical_self]
  rfl

end Records

section Candidates

variable {C : Type} {builtins : Builtins} {errors : CandidateErrors} {format : C → String}
  {build : (planRevision name : String) → (number : ℤ) →
    checkCandidate planRevision name number = true → C}

/-- An accepted text is the one that its candidate is written as. -/
theorem format_of_parseCandidate {value : String} {candidate : C}
    (h : parseCandidate builtins errors build format value = .ok candidate) :
    format candidate = value := by
  unfold parseCandidate at h
  split at h
  · split at h
    · split at h
      · dsimp only at h
        split at h
        · cases h
        next hsame =>
          obtain rfl := Except.ok.inj h
          exact not_not.mp hsame
      · cases h
    · cases h
  · cases h

theorem comma_not_mem_of_sha256 {text : String} (h : isSha256 text = true) :
    ',' ∉ text.toList := by
  intro hmem
  simp only [isSha256, Bool.and_eq_true, List.all_eq_true] at h
  have hcomma := h.2 ',' hmem
  revert hcomma
  decide

theorem comma_not_mem_of_portable {text : String} (h : isPortableId text = true) :
    ',' ∉ text.toList := by
  intro hmem
  have hcomma := GraphStore.portable_chars h ',' hmem
  revert hcomma
  decide

theorem comma_not_mem_toString {number : ℤ} (h : 0 ≤ number) : ',' ∉ (toString number).toList := by
  obtain ⟨n, rfl⟩ := Int.eq_ofNat_of_zero_le h
  have hdigits : (toString (n : ℤ)).toList = Nat.toDigits 10 n := by
    show (toString n).toList = _
    simp
  rw [hdigits]
  intro hmem
  have hdigit := Nat.isDigit_of_mem_toDigits (by omega) (by omega) hmem
  revert hdigit
  decide

/-- A candidate is read back from its text. -/
theorem parseCandidate_formatCandidate {planRevision name : String} {number : ℤ}
    (h : checkCandidate planRevision name number = true)
    (hformat : format (build planRevision name number h) =
      formatCandidate planRevision name number)
    (hreads : builtins.int (toString number) = some number) :
    parseCandidate builtins errors build format (formatCandidate planRevision name number) =
      .ok (build planRevision name number h) := by
  have hvalid := h
  simp only [checkCandidate, Bool.and_eq_true, decide_eq_true_eq] at hvalid
  obtain ⟨⟨⟨hrevision, hname⟩, hnonneg⟩, -⟩ := hvalid
  have htext : (formatCandidate planRevision name number).toList =
      planRevision.toList ++ ',' :: (name.toList ++ ',' :: (toString number).toList) := by
    simp [formatCandidate]
  have hsplit : (formatCandidate planRevision name number).toList.splitOn ',' =
      [planRevision.toList, name.toList, (toString number).toList] := by
    rw [htext, List.splitOn_append_cons_self_of_not_mem (comma_not_mem_of_sha256 hrevision),
      List.splitOn_append_cons_self_of_not_mem (comma_not_mem_of_portable hname),
      List.splitOn_eq_singleton (comma_not_mem_toString hnonneg)]
  unfold parseCandidate
  simp only [hsplit, String.ofList_toList, hreads]
  rw [dif_pos h, if_neg (not_not.mpr hformat)]

end Candidates

section Codecs

variable {reader : PayloadReader} {builtins : Builtins} {sha256 : String → String}

/-- Every wakeup, attempt, trigger and candidate is read back from what it is written as, when
Python reads the texts of its own datetimes and integers back. What the decoders accept is written
as the same bytes or text. -/
theorem codecs_canonical (wakeup : ScheduleWakeup) (record : AttemptRecord sha256)
    (decoded : RunTrigger) (placement : PlacementCandidate) (sizeClass : SizeClassCandidate)
    (hwakeup : Reads builtins wakeup.scheduledOccurrence)
    (hcreated : Reads builtins record.createdAt)
    (hrecord : ∀ moment ∈ record.trigger.scheduledOccurrence, Reads builtins moment)
    (hdecoded : ∀ moment ∈ decoded.scheduledOccurrence, Reads builtins moment)
    (hcost : builtins.int (toString placement.estimatedCostMicrousd) =
      some placement.estimatedCostMicrousd)
    (hmaximum : builtins.int (toString sizeClass.maxInputBytes) = some sizeClass.maxInputBytes) :
    ((∃ data, serializeScheduleWakeup wakeup = .ok data ∧
      deserializeScheduleWakeup reader builtins data = .ok wakeup) ∧
    (∃ data, serializeAttemptRecord record = .ok data ∧
      deserializeAttemptRecord reader builtins sha256 data = .ok record) ∧
    trigger builtins (triggerPayload decoded) = .ok decoded ∧
    parsePlacementCandidateSpec builtins (formatPlacementCandidateSpec placement) =
      .ok placement ∧
    parseSizeClassCandidateSpec builtins (formatSizeClassCandidateSpec sizeClass) =
      .ok sizeClass) ∧
    (∀ data accepted, deserializeScheduleWakeup reader builtins data = .ok accepted →
      serializeScheduleWakeup accepted = .ok data) ∧
    (∀ data accepted, deserializeAttemptRecord reader builtins sha256 data = .ok accepted →
      serializeAttemptRecord accepted = .ok data) ∧
    (∀ value accepted, parsePlacementCandidateSpec builtins value = .ok accepted →
      formatPlacementCandidateSpec accepted = value) ∧
    (∀ value accepted, parseSizeClassCandidateSpec builtins value = .ok accepted →
      formatSizeClassCandidateSpec accepted = value) := by
  refine ⟨⟨?_, ?_, ?_, ?_, ?_⟩, ?_, ?_, ?_, ?_⟩
  · exact deserializeScheduleWakeup_serialize reader wakeup hwakeup
  · exact deserializeAttemptRecord_serialize reader record hcreated hrecord
  · exact trigger_payload decoded hdecoded
  · exact parseCandidate_formatCandidate placement.valid rfl hcost
  · exact parseCandidate_formatCandidate sizeClass.valid rfl hmaximum
  · intro data accepted h
    exact serializeScheduleWakeup_of_deserialize h
  · intro data accepted h
    exact serializeAttemptRecord_of_deserialize h
  · intro value accepted h
    exact format_of_parseCandidate h
  · intro value accepted h
    exact format_of_parseCandidate h

/-- The digest of run-1:1, which is the only text that is asked for below. -/
def runDigest (_ : String) : String :=
  "a2d003afd28962f68280799207d8fe0d31ef08931a893d7d9965659c06a70d3f"

theorem noon_valid : 12 < 24 ∧ 0 < 60 ∧ 0 < 60 ∧ 0 < 1000000 := by decide

theorem newYear_valid :
    1 ≤ 2026 ∧ 2026 ≤ 9999 ∧ 1 ≤ 1 ∧ 1 ≤ 12 ∧ 1 ≤ 1 ∧ 1 ≤ daysInMonth 2026 1 := by decide

def noon : DateTime := ⟨⟨2026, 1, 1, newYear_valid⟩, ⟨12, 0, 0, 0, noon_valid⟩, some .utc⟩

/-- The readers of one datetime and one integer. -/
def noonReaders : Builtins where
  int text := if text = "1500" then some 1500 else none
  decimal _ := none
  float _ := none
  floatRepr _ := ""
  dateFromisoformat _ := none
  timeFromisoformat _ := none
  datetimeFromisoformat text := if text = "2026-01-01T12:00:00+00:00" then some noon else none

theorem reads_noon : Reads noonReaders noon := by
  show noonReaders.datetimeFromisoformat noon.isoformat = some noon
  decide +kernel

theorem noonWakeup_valid :
    (isPortableId "nightly" && isSha256 (runDigest "") && noon.isUtc) = true := by decide +kernel

theorem noonTrigger_valid :
    checkTrigger .schedule "nightly" (some noon) none none = true := by decide +kernel

theorem noonAttempt_valid : checkAttempt runDigest "run-1" "attempt-1-a2d003afd28962f68280" 1
    "orders" (runDigest "") "cloud_run" noon = true := by decide +kernel

theorem noonCandidate_valid : checkCandidate (runDigest "") "eu-west" 1500 = true := by
  decide +kernel

def noonWakeup : ScheduleWakeup := ⟨"nightly", runDigest "", noon, noonWakeup_valid⟩

def noonTrigger : RunTrigger := ⟨.schedule, "nightly", some noon, none, none, noonTrigger_valid⟩

def noonAttempt : AttemptRecord runDigest :=
  ⟨"run-1", "attempt-1-a2d003afd28962f68280", 1, "orders", runDigest "", "cloud_run", noonTrigger,
    noon, noonAttempt_valid⟩

def noonPlacement : PlacementCandidate := ⟨runDigest "", "eu-west", 1500, noonCandidate_valid⟩

def noonSizeClass : SizeClassCandidate := ⟨runDigest "", "eu-west", 1500, noonCandidate_valid⟩

theorem codecs_canonical_noon :
    (∃ data, serializeScheduleWakeup noonWakeup = .ok data ∧
      deserializeScheduleWakeup ⟨fun _ => none, fun _ => false⟩ noonReaders data =
        .ok noonWakeup) ∧
    (∃ data, serializeAttemptRecord noonAttempt = .ok data ∧
      deserializeAttemptRecord ⟨fun _ => none, fun _ => false⟩ noonReaders runDigest data =
        .ok noonAttempt) ∧
    trigger noonReaders (triggerPayload noonTrigger) = .ok noonTrigger ∧
    parsePlacementCandidateSpec noonReaders (formatPlacementCandidateSpec noonPlacement) =
      .ok noonPlacement ∧
    parseSizeClassCandidateSpec noonReaders (formatSizeClassCandidateSpec noonSizeClass) =
      .ok noonSizeClass := by
  have hoccurrence : ∀ moment ∈ noonTrigger.scheduledOccurrence, Reads noonReaders moment := by
    intro moment hmoment
    obtain rfl : noon = moment := Option.some.inj hmoment
    exact reads_noon
  exact (codecs_canonical noonWakeup noonAttempt noonTrigger noonPlacement noonSizeClass reads_noon
    reads_noon hoccurrence hoccurrence (by decide +kernel) (by decide +kernel)).1

end Codecs

end Dander.Codecs
