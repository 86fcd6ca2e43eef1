import Mathlib.Data.List.Induction
import Dander.PipelineHistory

/-!
# Agreement of the run-history stores

What matters of a run is its pipeline, its source, its status and the code of its failure. On
these each store acts as one book of runs, as long as no checkpoint is made of a run that has
ended, and no run is started twice. Otherwise the stores differ at once.
-/
namespace Dander.PipelineHistory

section Books

/-- An entry of the book. The code is kept of failed runs. -/
structure Entry where
  runId : String
  pipelineId : String
  source : String
  status : RunStatus
  code : Option String
  deriving DecidableEq

def failureOf (status : RunStatus) (code : Option String) : Option String :=
  if status = .failed then code else none

def entry (record : RunRecord) : Entry :=
  ⟨record.runId, record.pipelineId, record.source, record.status,
    failureOf record.status record.failureCode⟩

def Entry.ended (status : RunStatus) (code : Option String) (e : Entry) : Entry :=
  { e with status := status, code := failureOf status code }

def Entry.matchesRetryable (source pipelineId : String) (e : Entry) : Bool :=
  decide (e.source = source ∧ e.pipelineId = pipelineId ∧ e.status = .failed) &&
    e.code.any fun code => decide (code ∈ retryableCodes)

def bookHas (book : List Entry) (runId : String) : Bool :=
  book.any fun e => decide (e.runId = runId)

def bookUpdate (runId : String) (set : Entry → Entry) (book : List Entry) : List Entry :=
  book.map fun e => if e.runId = runId then set e else e

def newEntry (runId source pipelineId : String) : Entry :=
  ⟨runId, pipelineId, source, .running, none⟩

/-- What a call does to the book. -/
def bookCall (book : List Entry) : HistoryCall → List Entry
  | .start runId source pipelineId =>
    if bookHas book runId then book else book ++ [newEntry runId source (pipelineOr source pipelineId)]
  | .restartRetryable runId source pipelineId =>
    if bookHas book runId then
      if book.any fun e => decide (e.runId = runId) &&
          e.matchesRetryable source (pipelineOr source pipelineId) then
        bookUpdate runId (Entry.ended .running none) book
      else book
    else book ++ [newEntry runId source (pipelineOr source pipelineId)]
  | .checkpoint .. => book
  | .finish runId status _ _ code _ => bookUpdate runId (Entry.ended status code) book
  | .reconcileInterrupted pipelineId currentRunId =>
    book.map fun e =>
      if e.status = .running ∧ e.pipelineId = pipelineId ∧ e.runId ≠ currentRunId then
        e.ended .failed (some "interrupted_run")
      else e

/-- A checkpoint is of a run that has not ended, and a start is of a new run. -/
def Admissible (history : History) : HistoryCall → Prop
  | .start runId _ _ => ∀ record ∈ history, record.runId ≠ runId
  | .checkpoint runId _ _ =>
    ∀ record ∈ history, record.runId = runId → record.status.terminal = false
  | _ => True

end Books

section Refinement

attribute [local simp] StoreKind.call StoreKind.statements StoreKind.execAll StoreKind.exec

variable {history : History} {runId source pipelineId : String} {record : RunRecord}

@[simp] theorem entry_runId : (entry record).runId = record.runId := rfl
@[simp] theorem entry_started :
    entry (started runId source pipelineId) = newEntry runId source pipelineId := rfl

theorem entry_restarted : entry (restarted record) = (entry record).ended .running none := rfl

theorem entry_overwritten {status : RunStatus} {stage : RunStage} {totals : Totals}
    {failureStage : Option RunStage} {code summary : Option String} :
    entry (overwritten status stage totals failureStage code summary record) =
      (entry record).ended status code := rfl

theorem entry_interrupted :
    entry (interrupted record) = (entry record).ended .failed (some "interrupted_run") := rfl

theorem entry_running (hrunning : record.status.terminal = false) :
    (entry record).ended .running none = entry record := by
  have hstatus : record.status = .running := by
    cases hcase : record.status <;> simp [hcase, RunStatus.terminal] at hrunning ⊢
  simp [Entry.ended, entry, hstatus, failureOf]

theorem matchesRetryable_entry :
    (entry record).matchesRetryable source pipelineId = matchesRetryable source pipelineId record := by
  unfold Entry.matchesRetryable matchesRetryable entry failureOf
  by_cases hfailed : record.status = .failed <;> simp [hfailed]

theorem has_entry : bookHas (history.map entry) runId = has history runId := by
  unfold bookHas has
  rw [List.any_map]
  rfl

theorem map_updateRun {set : RunRecord → RunRecord} {set' : Entry → Entry}
    (hset : ∀ record ∈ history, record.runId = runId → entry (set record) = set' (entry record)) :
    (updateRun runId set history).map entry = bookUpdate runId set' (history.map entry) := by
  unfold updateRun bookUpdate
  rw [List.map_map, List.map_map]
  apply List.map_congr_left
  intro record hrecord
  by_cases hid : record.runId = runId
  · simp [hid, hset record hrecord hid]
  · simp [hid]

theorem bookUpdate_self {set : Entry → Entry} {book : List Entry}
    (hset : ∀ e ∈ book, e.runId = runId → set e = e) : bookUpdate runId set book = book := by
  unfold bookUpdate
  conv_rhs => rw [← List.map_id book]
  apply List.map_congr_left
  intro e he
  by_cases hid : e.runId = runId
  · simp [hid, hset e he hid]
  · simp [hid]

theorem map_interruptOthers {currentRunId : String} :
    (interruptOthers pipelineId currentRunId history).map entry =
      bookCall (history.map entry) (.reconcileInterrupted pipelineId currentRunId) := by
  simp only [interruptOthers, bookCall]
  rw [List.map_map, List.map_map]
  apply List.map_congr_left
  intro record _
  rw [Function.comp_apply, Function.comp_apply]
  by_cases hother : record.status = .running ∧ record.pipelineId = pipelineId ∧
      record.runId ≠ currentRunId
  · have hother' : (entry record).status = .running ∧ (entry record).pipelineId = pipelineId ∧
        (entry record).runId ≠ currentRunId := hother
    rw [if_pos hother, if_pos hother']
    exact entry_interrupted
  · have hother' : ¬ ((entry record).status = .running ∧
        (entry record).pipelineId = pipelineId ∧ (entry record).runId ≠ currentRunId) := hother
    rw [if_neg hother, if_neg hother']

theorem any_matching : ((history.map entry).any fun e =>
      decide (e.runId = runId) && e.matchesRetryable source pipelineId) =
    history.any fun record =>
      decide (record.runId = runId) && matchesRetryable source pipelineId record := by
  rw [List.any_map]
  congr 1
  funext record
  rw [Function.comp_apply, matchesRetryable_entry]
  rfl

theorem map_restart : (settle history (Sqlite.restartRetryable runId source pipelineId
      history)).2.map entry =
    if bookHas (history.map entry) runId then
      if (history.map entry).any fun e => decide (e.runId = runId) &&
          e.matchesRetryable source pipelineId then
        bookUpdate runId (Entry.ended .running none) (history.map entry)
      else history.map entry
    else history.map entry ++ [newEntry runId source pipelineId] := by
  unfold Sqlite.restartRetryable
  rw [has_entry, any_matching]
  by_cases hhas : has history runId = true
  · rw [if_pos hhas, if_pos hhas]
    split
    · exact map_updateRun fun _ _ _ => entry_restarted
    · rfl
  · rw [if_neg hhas, if_neg hhas]
    simp [settle]

/-- SQLite keeps the book. -/
theorem sqlite_refines (history : History) (call : HistoryCall) :
    (StoreKind.sqlite.call history call).map entry = bookCall (history.map entry) call := by
  cases call with
  | start runId source pipelineId =>
    simp only [StoreKind.call, StoreKind.statements, StoreKind.execAll, StoreKind.exec,
      Sqlite.start, bookCall, has_entry]
    by_cases hhas : has history runId = true <;> simp [hhas, settle]
  | restartRetryable runId source pipelineId =>
    have hrestart : (StoreKind.sqlite.call history (.restartRetryable runId source pipelineId)) =
        (settle history (Sqlite.restartRetryable runId source (pipelineOr source pipelineId)
          history)).2 := by
      simp only [StoreKind.call, StoreKind.statements, StoreKind.execAll, StoreKind.exec]
      cases Sqlite.restartRetryable runId source (pipelineOr source pipelineId) history <;> rfl
    rw [hrestart, map_restart]
    rfl
  | checkpoint runId stage totals =>
    have hself : bookUpdate runId id (history.map entry) = history.map entry :=
      bookUpdate_self fun _ _ _ => rfl
    have hcheckpoint : (Sqlite.checkpoint runId stage totals history).map entry =
        bookUpdate runId id (history.map entry) := map_updateRun fun _ _ _ => rfl
    exact hcheckpoint.trans hself
  | finish runId status totals failureStage code summary =>
    exact map_updateRun fun _ _ _ => entry_overwritten
  | reconcileInterrupted pipelineId currentRunId => exact map_interruptOthers

/-- A checkpoint of a run that has not ended is not seen in the book. -/
theorem map_checkpoint {stage : RunStage} {totals : Totals}
    (hrunning : ∀ record ∈ history, record.runId = runId → record.status.terminal = false) :
    (updateRun runId (overwritten .running stage totals none none none) history).map entry =
      history.map entry := by
  have hupdate : (updateRun runId (overwritten .running stage totals none none none) history).map
      entry = bookUpdate runId (Entry.ended .running none) (history.map entry) :=
    map_updateRun fun _ _ _ => entry_overwritten
  rw [hupdate]
  apply bookUpdate_self
  intro e he hid
  obtain ⟨record, hrecord, rfl⟩ := List.mem_map.mp he
  exact entry_running (hrunning record hrecord hid)

theorem postgresql_refines {call : HistoryCall} (hcall : Admissible history call) :
    (StoreKind.postgresql.call history call).map entry = bookCall (history.map entry) call := by
  cases call with
  | start runId source pipelineId =>
    simp only [StoreKind.call, StoreKind.statements, StoreKind.execAll, StoreKind.exec,
      Postgresql.start, bookCall, has_entry]
    by_cases hhas : has history runId = true <;> simp [hhas, settle]
  | restartRetryable runId source pipelineId =>
    exact sqlite_refines history (.restartRetryable runId source pipelineId)
  | checkpoint runId stage totals => exact map_checkpoint hcall
  | finish runId status totals failureStage code summary =>
    exact map_updateRun fun _ _ _ => entry_overwritten
  | reconcileInterrupted pipelineId currentRunId => exact map_interruptOthers

theorem has_eq_false : has history runId = false ↔ ∀ record ∈ history, record.runId ≠ runId := by
  simp [has]

/-- Among records of different runs, those of one run are none or one. -/
theorem filter_runId (hunique : (history.map RunRecord.runId).Nodup) :
    (history.filter fun record => decide (record.runId = runId)).length ≤ 1 := by
  induction history with
  | nil => simp
  | cons first rest ih =>
    rw [List.map_cons, List.nodup_cons] at hunique
    obtain ⟨hnew, hrest⟩ := hunique
    by_cases hid : first.runId = runId
    · have hnone : (rest.filter fun record => decide (record.runId = runId)) = [] := by
        rw [List.filter_eq_nil_iff]
        intro record hrecord hsame
        have heq : record.runId = first.runId := (of_decide_eq_true hsame).trans hid.symm
        exact hnew (heq ▸ List.mem_map_of_mem hrecord)
      simp [hid, hnone]
    · simpa [hid] using ih hrest

/-- The assertion and the merge of BigQuery are the restart of the other stores. -/
theorem bigquery_restart (hunique : (history.map RunRecord.runId).Nodup) :
    (StoreKind.bigquery.execAll [.assertRetryable runId source pipelineId,
      .mergeRestart runId source pipelineId] history).2 =
      (settle history (Sqlite.restartRetryable runId source pipelineId history)).2 := by
  have hone : (history.filter fun record => decide (record.runId = runId)).length ≤ 1 :=
    filter_runId hunique
  have hany : (history.filter fun record => decide (record.runId = runId)).any
        (matchesRetryable source pipelineId) =
      history.any fun record =>
        decide (record.runId = runId) && matchesRetryable source pipelineId record :=
    List.any_filter
  have hempty : (history.filter fun record => decide (record.runId = runId)).length = 0 ↔
      has history runId = false := by
    rw [List.length_eq_zero_iff, List.filter_eq_nil_iff, has_eq_false]
    simp
  unfold Sqlite.restartRetryable
  simp only [StoreKind.execAll, StoreKind.exec, Bigquery.assertRetryable, hany]
  cases hhas : has history runId with
  | false =>
    rw [if_pos (.inl (hempty.mpr hhas))]
    simp [Bigquery.mergeRestart, hhas, settle]
  | true =>
    have hlength : (history.filter fun record => decide (record.runId = runId)).length = 1 := by
      have hne : (history.filter fun record => decide (record.runId = runId)).length ≠ 0 := by
        rw [ne_eq, hempty, hhas]
        simp
      omega
    cases hmatch : history.any fun record =>
        decide (record.runId = runId) && matchesRetryable source pipelineId record with
    | false => simp [hlength, settle]
    | true => simp [hlength, Bigquery.mergeRestart, hhas, settle]

theorem bigquery_refines {call : HistoryCall} (hunique : (history.map RunRecord.runId).Nodup)
    (hcall : Admissible history call) :
    (StoreKind.bigquery.call history call).map entry = bookCall (history.map entry) call := by
  cases call with
  | start runId source pipelineId =>
    have hnone : has history runId = false := has_eq_false.mpr hcall
    simp [StoreKind.call, StoreKind.statements, StoreKind.execAll, StoreKind.exec, Bigquery.start,
      bookCall, has_entry, hnone]
  | restartRetryable runId source pipelineId =>
    have hrestart : StoreKind.bigquery.call history (.restartRetryable runId source pipelineId) =
      (settle history (Sqlite.restartRetryable runId source (pipelineOr source pipelineId)
        history)).2 := bigquery_restart hunique
    rw [hrestart, map_restart]
    rfl
  | checkpoint runId stage totals => exact map_checkpoint hcall
  | finish runId status totals failureStage code summary =>
    exact map_updateRun fun _ _ _ => entry_overwritten
  | reconcileInterrupted pipelineId currentRunId => exact map_interruptOthers

end Refinement

section Agreement

/-- The status of each run in the three stores. -/
def Agree (sqlite postgresql bigquery : History) : Prop :=
  ∀ runId, statuses sqlite runId = statuses postgresql runId ∧
    statuses sqlite runId = statuses bigquery runId

/-- The three stores hold one book, with one entry for each run. -/
structure Synced (sqlite postgresql bigquery : History) : Prop where
  postgresql : postgresql.map entry = sqlite.map entry
  bigquery : bigquery.map entry = sqlite.map entry
  unique : (sqlite.map RunRecord.runId).Nodup

variable {sqlite postgresql bigquery history other : History} {call : HistoryCall} {runId : String}

theorem statuses_entry : statuses history runId =
    ((history.map entry).filter fun e => decide (e.runId = runId)).map Entry.status := by
  rw [List.filter_map, List.map_map]
  rfl

theorem statuses_congr (h : history.map entry = other.map entry) :
    statuses history runId = statuses other runId := by
  rw [statuses_entry, h, ← statuses_entry]

theorem runIds_congr (h : history.map entry = other.map entry) :
    history.map RunRecord.runId = other.map RunRecord.runId := by
  have hmap : ∀ history : History, history.map RunRecord.runId =
      (history.map entry).map Entry.runId := by
    intro history
    rw [List.map_map]
    rfl
  rw [hmap, h, ← hmap]

theorem admissible_congr (h : history.map entry = other.map entry) (hcall : Admissible other call) :
    Admissible history call := by
  have hentry : ∀ record ∈ history, ∃ record' ∈ other, entry record' = entry record := by
    intro record hrecord
    have hmem : entry record ∈ other.map entry := h ▸ List.mem_map_of_mem hrecord
    exact List.mem_map.mp hmem
  cases call with
  | start runId source pipelineId =>
    intro record hrecord hid
    obtain ⟨record', hrecord', heq⟩ := hentry record hrecord
    exact hcall record' hrecord' ((congrArg Entry.runId heq).trans hid)
  | checkpoint runId stage totals =>
    intro record hrecord hid
    obtain ⟨record', hrecord', heq⟩ := hentry record hrecord
    have hrunning := hcall record' hrecord' ((congrArg Entry.runId heq).trans hid)
    have hstatus : record'.status = record.status := congrArg Entry.status heq
    rwa [hstatus] at hrunning
  | restartRetryable runId source pipelineId => trivial
  | finish runId status totals failureStage code summary => trivial
  | reconcileInterrupted pipelineId currentRunId => trivial

theorem runId_bookUpdate {set : Entry → Entry} {book : List Entry}
    (hset : ∀ e, (set e).runId = e.runId) :
    (bookUpdate runId set book).map Entry.runId = book.map Entry.runId := by
  unfold bookUpdate
  rw [List.map_map]
  apply List.map_congr_left
  intro e _
  by_cases hid : e.runId = runId <;> simp [hid, hset]

/-- No call adds an entry for a run that has one. -/
theorem nodup_bookCall {book : List Entry} (hunique : (book.map Entry.runId).Nodup) :
    ((bookCall book call).map Entry.runId).Nodup := by
  have happend : ∀ runId source pipelineId, ¬ bookHas book runId = true →
      ((book ++ [newEntry runId source pipelineId]).map Entry.runId).Nodup := by
    intro runId source pipelineId hnone
    simp only [bookHas, List.any_eq_true, decide_eq_true_eq, not_exists, not_and] at hnone
    rw [List.map_append, List.nodup_append]
    refine ⟨hunique, by simp, ?_⟩
    intro a ha b hb heq
    obtain ⟨e, he, rfl⟩ := List.mem_map.mp ha
    simp only [List.map_cons, List.map_nil, List.mem_singleton] at hb
    exact hnone e he (heq.trans hb)
  cases call with
  | start runId source pipelineId =>
    simp only [bookCall]
    by_cases hhas : bookHas book runId = true
    · simpa [hhas] using hunique
    · simpa [hhas] using happend runId source _ hhas
  | restartRetryable runId source pipelineId =>
    simp only [bookCall]
    by_cases hhas : bookHas book runId = true
    · rw [if_pos hhas]
      have hids : (bookUpdate runId (Entry.ended .running none) book).map Entry.runId =
          book.map Entry.runId := runId_bookUpdate fun _ => rfl
      split
      · rwa [hids]
      · exact hunique
    · simpa [hhas] using happend runId source _ hhas
  | checkpoint runId stage totals => exact hunique
  | finish runId status totals failureStage code summary =>
    have hids : (bookUpdate runId (Entry.ended status code) book).map Entry.runId =
        book.map Entry.runId := runId_bookUpdate fun _ => rfl
    simp only [bookCall]
    rwa [hids]
  | reconcileInterrupted pipelineId currentRunId =>
    simp only [bookCall]
    have hsame : (book.map fun e => if e.status = .running ∧ e.pipelineId = pipelineId ∧
          e.runId ≠ currentRunId then e.ended .failed (some "interrupted_run") else e).map
        Entry.runId = book.map Entry.runId := by
      rw [List.map_map]
      apply List.map_congr_left
      intro e _
      simp only [Function.comp_apply]
      split <;> rfl
    rwa [hsame]

theorem Synced.step (h : Synced sqlite postgresql bigquery) (hcall : Admissible sqlite call) :
    Synced (StoreKind.sqlite.call sqlite call) (StoreKind.postgresql.call postgresql call)
      (StoreKind.bigquery.call bigquery call) := by
  have hsqlite := sqlite_refines sqlite call
  have hpostgresql := postgresql_refines (admissible_congr h.postgresql hcall)
  have hbigquery := bigquery_refines (runIds_congr h.bigquery ▸ h.unique)
    (admissible_congr h.bigquery hcall)
  refine ⟨?_, ?_, ?_⟩
  · rw [hpostgresql, h.postgresql, hsqlite]
  · rw [hbigquery, h.bigquery, hsqlite]
  · have hids : ∀ history : History, history.map RunRecord.runId =
        (history.map entry).map Entry.runId := by
      intro history
      rw [List.map_map]
      rfl
    rw [hids, hsqlite]
    apply nodup_bookCall
    rw [← hids]
    exact h.unique

theorem Synced.agree (h : Synced sqlite postgresql bigquery) : Agree sqlite postgresql bigquery :=
  fun _ => ⟨statuses_congr h.postgresql.symm, statuses_congr h.bigquery.symm⟩

theorem mem_statuses {status : RunStatus} : status ∈ statuses history runId ↔
    ∃ record ∈ history, record.runId = runId ∧ record.status = status := by
  simp [statuses, and_assoc]

/-- A call that is not admissible leaves the stores with different statuses. -/
theorem admissible_of_agree (h : Synced sqlite postgresql bigquery)
    (hagree : Agree (StoreKind.sqlite.call sqlite call) (StoreKind.postgresql.call postgresql call)
      (StoreKind.bigquery.call bigquery call)) : Admissible sqlite call := by
  cases call with
  | start runId source pipelineId =>
    intro record hrecord hid
    have hhas : has sqlite runId = true := by
      rw [has, List.any_eq_true]
      exact ⟨record, hrecord, decide_eq_true hid⟩
    have hsqlite : StoreKind.sqlite.call sqlite (.start runId source pipelineId) = sqlite := by
      simp [StoreKind.call, StoreKind.statements, StoreKind.execAll, StoreKind.exec, Sqlite.start,
        hhas, settle]
    have hbigquery : statuses (StoreKind.bigquery.call bigquery (.start runId source pipelineId))
        runId = statuses bigquery runId ++ [.running] := by
      simp [StoreKind.call, StoreKind.statements, StoreKind.execAll, StoreKind.exec,
        Bigquery.start, statuses, started]
    have hlength := congrArg List.length (hagree runId).2
    have hbefore := congrArg List.length (h.agree runId).2
    rw [hsqlite, hbigquery, List.length_append] at hlength
    simp only [List.length_cons, List.length_nil] at hlength
    omega
  | checkpoint runId stage totals =>
    intro record hrecord hid
    have hkept : record.status ∈ statuses (StoreKind.sqlite.call sqlite
        (.checkpoint runId stage totals)) runId := by
      have hsame : (StoreKind.sqlite.call sqlite (.checkpoint runId stage totals)).map entry =
          sqlite.map entry := sqlite_refines sqlite (.checkpoint runId stage totals)
      rw [statuses_congr hsame]
      exact mem_statuses.mpr ⟨record, hrecord, hid, rfl⟩
    rw [(hagree runId).1] at hkept
    obtain ⟨record', hrecord', hid', hstatus⟩ := mem_statuses.mp hkept
    have hmem : record' ∈ updateRun runId (overwritten .running stage totals none none none)
        postgresql := hrecord'
    obtain ⟨before, -, heq⟩ := List.mem_map.mp hmem
    by_cases hbefore : before.runId = runId
    · rw [if_pos hbefore] at heq
      rw [← hstatus, ← heq]
      rfl
    · rw [if_neg hbefore] at heq
      subst heq
      exact absurd hid' hbefore
  | restartRetryable runId source pipelineId => trivial
  | finish runId status totals failureStage code summary => trivial
  | reconcileInterrupted pipelineId currentRunId => trivial

/-- On a sequence of calls the stores hold the same status of every run after each call, exactly
if each call is admissible when it is made. -/
theorem calls_agree_iff (calls : List HistoryCall) :
    ((∀ before, before <+: calls → Agree (StoreKind.sqlite.calls before)
        (StoreKind.postgresql.calls before) (StoreKind.bigquery.calls before)) ↔
      ∀ before call, before ++ [call] <+: calls →
        Admissible (StoreKind.sqlite.calls before) call) ∧
    ((∀ before call, before ++ [call] <+: calls →
        Admissible (StoreKind.sqlite.calls before) call) →
      Synced (StoreKind.sqlite.calls calls) (StoreKind.postgresql.calls calls)
        (StoreKind.bigquery.calls calls)) := by
  induction calls using List.reverseRecOn with
  | nil =>
    have hsynced : Synced (StoreKind.sqlite.calls []) (StoreKind.postgresql.calls [])
        (StoreKind.bigquery.calls []) := ⟨rfl, rfl, List.nodup_nil⟩
    refine ⟨⟨?_, ?_⟩, fun _ => hsynced⟩
    · intro _ before call hprefix
      have hlength := hprefix.length_le
      simp at hlength
    · intro _ before hprefix
      rw [List.prefix_nil.mp hprefix]
      exact hsynced.agree
  | append_singleton calls call ih =>
    obtain ⟨hiff, hsynced⟩ := ih
    have hlast : ∀ kind : StoreKind, kind.calls (calls ++ [call]) = kind.call (kind.calls calls) call := by
      intro kind
      exact List.foldl_append
    have hearlier : ∀ before, before <+: calls → before <+: calls ++ [call] :=
      fun before hprefix => hprefix.trans (List.prefix_append calls [call])
    refine ⟨⟨?_, ?_⟩, ?_⟩
    · intro hagree before last hprefix
      have hadmissible := hiff.mp fun before hprefix => hagree before (hearlier before hprefix)
      rcases List.prefix_concat_iff.mp hprefix with heq | hshorter
      · obtain ⟨rfl, hcall⟩ := List.append_inj' heq rfl
        obtain rfl : last = call := by simpa using hcall
        have hnow := hagree _ (List.prefix_refl _)
        rw [hlast, hlast, hlast] at hnow
        exact admissible_of_agree (hsynced hadmissible) hnow
      · exact hadmissible before last hshorter
    · intro hadmissible before hprefix
      have hbefore : ∀ before call, before ++ [call] <+: calls →
          Admissible (StoreKind.sqlite.calls before) call :=
        fun before last hshorter => hadmissible before last (hearlier _ hshorter)
      rcases List.prefix_concat_iff.mp hprefix with rfl | hshorter
      · rw [hlast, hlast, hlast]
        exact ((hsynced hbefore).step (hadmissible calls call (List.prefix_refl _))).agree
      · exact hiff.mpr hbefore before hshorter
    · intro hadmissible
      have hbefore : ∀ before call, before ++ [call] <+: calls →
          Admissible (StoreKind.sqlite.calls before) call :=
        fun before last hshorter => hadmissible before last (hearlier _ hshorter)
      rw [hlast, hlast, hlast]
      exact (hsynced hbefore).step (hadmissible calls call (List.prefix_refl _))

end Agreement

end Dander.PipelineHistory
