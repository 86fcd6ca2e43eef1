import Dander.ExecutionResults
import Dander.FargateReconciliation
import Dander.JsonEndings

/-!
# Which completion lines are recovered

The line that ends a log is found if it is short enough, within the pages that are read, and no
page before its own holds another completion line.
-/
namespace Dander.Orchestration

open JsonText RuntimeContract

section Property

/-- The numbers that an event reports, in the order of a summary. -/
def reportedNumbers (result : PipelineExecutionResult) (telemetry : RunTelemetry) : List ℤ :=
  result.metrics.map Prod.snd ++ [(telemetry.durationMs : ℤ), (telemetry.operations.length : ℤ)] ++
    telemetry.totals.map (fun number => Int.ofNat number.2)

def ExecutionResultSummary.Carries (summary : ExecutionResultSummary)
    (result : PipelineExecutionResult) (telemetry : RunTelemetry) : Prop :=
  summary.numbers.map Int.ofNat = reportedNumbers result telemetry ∧
    summary.skipped = result.skipped

/-- The message is looked at as a completion event, or is not read as a document at all. -/
def isCompletion (message : String) : Bool :=
  match loads message with
  | .error .malformed => false
  | .error .digits => true
  | .ok (.obj event) => isText "runtime.completed" (lookup "event" event)
  | .ok _ => false

/-- The lines on the pages before the one of the next line. -/
def earlierPages (earlier : List String) : List String :=
  earlier.take (earlier.length / logPageSize * logPageSize)

/-- The line is found after these. -/
structure Recoverable (earlier : List String) (line : String) (result : PipelineExecutionResult)
    (telemetry : RunTelemetry) : Prop where
  window : earlier.length < maxLogPages * logPageSize
  length : line.toList.length ≤ maxLogMessageLength
  numbers : ∀ n ∈ reportedNumbers result telemetry, 0 ≤ n ∧ n ≤ maxResultInteger
  pages : ∀ other ∈ earlierPages earlier, isCompletion (boundedMessage other) = false

def textEntry (line : String) : LogEntry := ⟨some (.str line), none⟩

/-- The log of an execution is that of the task it names. -/
def executionLines (binding : Fargate.FargateBinding) (planRevision : String)
    (handle : BackendHandle) (state : Fargate.ProviderState)
    (taskLines : String → List String) : List String :=
  match fargateTask binding planRevision handle state with
  | .ok (some taskId) => taskLines taskId
  | _ => []

def Recovers (readPage : Option ℕ → ℕ → Except CollectError BackendLogPage)
    (result : PipelineExecutionResult) (telemetry : RunTelemetry) : Prop :=
  ∃ summary, collectExecutionResultSummary readPage result.pipelineId = .ok summary ∧
    summary.Carries result telemetry

end Property

section Parsing

variable {result : PipelineExecutionResult} {telemetry : RunTelemetry}

theorem integer_eq_ok {n : ℤ} {label : String} {found : ℕ}
    (h : integer (.int n) label = .ok found) : n = found := by
  cases n with
  | ofNat n =>
    cases h
    rfl
  | negSucc n => cases h

theorem item_eq_ok {key : String} {members : List (String × Json)} {value : Json}
    (h : lookup key members = some value) : item key members = .ok value := by
  simp [item, h]

theorem metrics_lookup {key : String} {n : ℤ} (h : (key, n) ∈ result.metrics) :
    lookup key (sortedMembers (result.metrics.map fun number => (number.1, Json.int number.2))) =
      some (.int n) := by
  rw [lookup_sortedMembers result.nodup_metrics]
  have hfound : lookup key (result.metrics.map fun number => (number.1, Json.int number.2)) =
      some (.int n) := by
    rw [lookup_eq_some result.nodup_metrics]
    exact List.mem_map.mpr ⟨_, h, rfl⟩
  rw [hfound]
  rfl

theorem telemetry_lookup {key : String} {value : Json} (h : (key, value) ∈ telemetry.payload) :
    lookup key (sortedMembers telemetry.payload) = some (sortKeys value) := by
  rw [lookup_sortedMembers telemetry.nodup_payload]
  rw [(lookup_eq_some telemetry.nodup_payload).mpr h]
  rfl

theorem outputs_lookup {key : String} {value : Json}
    (h : (key, value) ∈ result.outputs telemetry) :
    lookup key (sortedMembers (result.outputs telemetry)) = some (sortKeys value) := by
  rw [lookup_sortedMembers (result.nodup_outputs telemetry)]
  rw [(lookup_eq_some (result.nodup_outputs telemetry)).mpr h]
  rfl

theorem number_metrics {key : String} {n : ℤ} (h : (key, n) ∈ result.metrics) :
    number (sortedMembers (result.metrics.map fun number => (number.1, Json.int number.2))) key =
      integer (.int n) key := by
  unfold number
  rw [item_eq_ok (metrics_lookup h)]
  rfl

theorem number_telemetry {key : String} {n : ℤ} (h : (key, .int n) ∈ telemetry.payload) :
    number (sortedMembers telemetry.payload) key = integer (.int n) key := by
  unfold number
  rw [item_eq_ok (telemetry_lookup h)]
  rfl

theorem length_sortItems (items : List Json) : (sortItems items).length = items.length := by
  induction items with
  | nil => rfl
  | cons item rest ih => simp [sortItems, ih]

theorem operationCount_payload (h : telemetry.operations.length ≤ maxOperations) :
    operationCount (sortedMembers telemetry.payload) = .ok telemetry.operations.length := by
  have hmem : ("operations", .arr (telemetry.operations.map OperationTelemetry.toPayload)) ∈
      telemetry.payload := by
    simp [RunTelemetry.payload]
  have hlookup : lookup "operations" (sortedMembers telemetry.payload) =
      some (.arr (sortItems (telemetry.operations.map OperationTelemetry.toPayload))) :=
    telemetry_lookup hmem
  have hlength : ¬ maxOperations <
      (sortItems (telemetry.operations.map OperationTelemetry.toPayload)).length := by
    rw [length_sortItems, List.length_map]
    omega
  unfold operationCount
  rw [item_eq_ok hlookup]
  show (if _ < _ then _ else pure
    (sortItems (telemetry.operations.map OperationTelemetry.toPayload)).length) = _
  rw [if_neg hlength, length_sortItems, List.length_map]
  rfl

theorem metrics_of_outputs (result : PipelineExecutionResult) (telemetry : RunTelemetry) :
    lookup "metrics" (sortedMembers (result.outputs telemetry)) = some (.obj (sortedMembers
      (result.metrics.map fun number => (number.1, .int number.2)))) := by
  have hmem : ("metrics", .obj (result.metrics.map fun number => (number.1, .int number.2))) ∈
      result.outputs telemetry := by
    simp [PipelineExecutionResult.outputs]
  exact outputs_lookup hmem

theorem telemetry_of_outputs (result : PipelineExecutionResult) (telemetry : RunTelemetry) :
    lookup "telemetry" (sortedMembers (result.outputs telemetry)) =
      some (.obj (sortedMembers telemetry.payload)) := by
  have hmem : ("telemetry", .obj telemetry.payload) ∈ result.outputs telemetry := by
    simp [PipelineExecutionResult.outputs]
  exact outputs_lookup hmem

/-- Numbers under their keys are found if none is negative. -/
theorem mapM_integer_eq_ok {numbers : List (String × ℤ)} {found : List ℕ} :
    numbers.mapM (fun number => integer (.int number.2) number.1) = .ok found ↔
      found.map Int.ofNat = numbers.map Prod.snd := by
  induction numbers generalizing found with
  | nil =>
    constructor
    · intro h
      cases h
      rfl
    · intro h
      simp only [List.map_nil, List.map_eq_nil_iff] at h
      rw [h]
      rfl
  | cons number rest ih =>
    rw [List.mapM_cons]
    constructor
    · intro h
      obtain ⟨first, hfirst, h⟩ := Execution.bind_eq_ok h
      obtain ⟨others, hothers, h⟩ := Execution.bind_eq_ok h
      cases h
      rw [List.map_cons, List.map_cons, ih.mp hothers, integer_eq_ok hfirst]
      rfl
    · intro h
      cases found with
      | nil => cases h
      | cons first others =>
        simp only [List.map_cons, List.cons.injEq] at h
        rw [← h.1, ih.mpr h.2]
        rfl

theorem mapM_number {members : List (String × Json)} {numbers : List (String × ℤ)}
    (h : ∀ key n, (key, n) ∈ numbers → number members key = integer (.int n) key) :
    (numbers.map Prod.fst).mapM (number members) =
      numbers.mapM (fun number => integer (.int number.2) number.1) := by
  induction numbers with
  | nil => rfl
  | cons first rest ih =>
    obtain ⟨key, n⟩ := first
    rw [List.map_cons, List.mapM_cons, List.mapM_cons, h key n (by simp),
      ih fun other m hmem => h other m (List.mem_cons_of_mem _ hmem)]

/-- The numbers of the telemetry that are looked up. -/
def telemetryNumbers (telemetry : RunTelemetry) : List (String × ℤ) :=
  ("duration_ms", (telemetry.durationMs : ℤ)) ::
    telemetry.totals.map fun number => (number.1, (number.2 : ℤ))

variable {event : List (String × Json)} {skipped : Bool}

theorem mem_payload_of_telemetryNumbers {key : String} {n : ℤ}
    (h : (key, n) ∈ telemetryNumbers telemetry) : (key, .int n) ∈ telemetry.payload := by
  unfold RunTelemetry.payload
  simp only [telemetryNumbers, List.mem_cons, List.mem_map, Prod.mk.injEq] at h
  simp only [List.mem_append, List.mem_map, List.mem_singleton, Prod.mk.injEq]
  rcases h with ⟨rfl, rfl⟩ | ⟨number, hmem, rfl, rfl⟩
  · exact .inl (.inl ⟨rfl, rfl⟩)
  · exact .inl (.inr ⟨number, hmem, rfl, rfl⟩)

/-- The summary of an event with these outputs. -/
theorem completionSummary_eq
    (houtputs : lookup "outputs" event = some (.obj (sortedMembers (result.outputs telemetry))))
    (hoperations : telemetry.operations.length ≤ maxOperations) :
    completionSummary event skipped = (do
      let counts ← result.metrics.mapM (fun number => integer (.int number.2) number.1)
      let totals ← (telemetryNumbers telemetry).mapM
        (fun number => integer (.int number.2) number.1)
      checkedSummary (summaryOf counts totals telemetry.operations.length skipped)) := by
  have hmetrics := item_eq_ok (metrics_of_outputs result telemetry)
  have htelemetry := item_eq_ok (telemetry_of_outputs result telemetry)
  have hcounts : metricKeys.mapM (number (sortedMembers
      (result.metrics.map fun number => (number.1, Json.int number.2)))) =
      result.metrics.mapM (fun number => integer (.int number.2) number.1) :=
    @mapM_number _ result.metrics fun key n h => number_metrics h
  have htotals : telemetryKeys.mapM (number (sortedMembers telemetry.payload)) =
      (telemetryNumbers telemetry).mapM (fun number => integer (.int number.2) number.1) :=
    @mapM_number _ (telemetryNumbers telemetry) fun key n h =>
      number_telemetry (mem_payload_of_telemetryNumbers h)
  unfold completionSummary
  rw [item_eq_ok houtputs, ← hcounts, ← htotals]
  simp only [Execution.ok_bind, mapping, hmetrics, htelemetry, operationCount_payload hoperations]

theorem summaryOf_eq_some (operations durationMs : ℕ) (skipped : Bool) {counts totals : List ℕ}
    (hcounts : counts.length = 6) (htotals : totals.length = 11) :
    ∃ summary, summaryOf counts (durationMs :: totals) operations skipped = some summary ∧
      summary.numbers = counts ++ [durationMs, operations] ++ totals ∧
      summary.skipped = skipped := by
  match counts, hcounts, totals, htotals with
  | [a, b, c, d, e, f], _, [g, h, i, j, k, l, m, n, o, p, q], _ => exact ⟨_, rfl, rfl, rfl⟩

theorem map_toNat {numbers : List ℤ} (h : ∀ n ∈ numbers, 0 ≤ n) :
    (numbers.map Int.toNat).map Int.ofNat = numbers := by
  induction numbers with
  | nil => rfl
  | cons n rest ih =>
    have hn : Int.ofNat n.toNat = n := Int.toNat_of_nonneg (h n (by simp))
    rw [List.map_cons, List.map_cons, hn, ih fun m hm => h m (List.mem_cons_of_mem _ hm)]

theorem checkedSummary_eq_ok {summary found : ExecutionResultSummary} :
    checkedSummary (some summary) = .ok found ↔
      found = summary ∧ ∀ n ∈ summary.numbers, n ≤ maxResultInteger := by
  have hany : ¬ (summary.numbers.any fun n => maxResultInteger < n) = true ↔
      ∀ n ∈ summary.numbers, n ≤ maxResultInteger := by
    simp
  rw [← hany]
  unfold checkedSummary
  by_cases hbound : (summary.numbers.any fun n => maxResultInteger < n) = true
  · simp [hbound]
  · simp only [if_neg hbound]
    constructor
    · intro h
      cases h
      exact ⟨rfl, hbound⟩
    · rintro ⟨rfl, -⟩
      rfl

theorem completionSummary_carries
    (houtputs : lookup "outputs" event = some (.obj (sortedMembers (result.outputs telemetry))))
    (hoperations : telemetry.operations.length ≤ maxOperations) {summary : ExecutionResultSummary}
    (h : completionSummary event result.skipped = .ok summary) :
    summary.Carries result telemetry ∧
      ∀ n ∈ reportedNumbers result telemetry, 0 ≤ n ∧ n ≤ maxResultInteger := by
  rw [completionSummary_eq houtputs hoperations] at h
  obtain ⟨counts, hcounts, h⟩ := Execution.bind_eq_ok h
  obtain ⟨totals, htotals, h⟩ := Execution.bind_eq_ok h
  have hcounts := mapM_integer_eq_ok.mp hcounts
  have htotals := mapM_integer_eq_ok.mp htotals
  have hlength : counts.length = 6 := by
    have := congrArg List.length hcounts
    simpa [PipelineExecutionResult.metrics] using this
  cases totals with
  | nil => simp [telemetryNumbers] at htotals
  | cons durationMs totals =>
    have hlater : totals.length = 11 := by
      have := congrArg List.length htotals
      simpa [telemetryNumbers, RunTelemetry.totals] using this
    obtain ⟨found, hfound, hnumbers, hskipped⟩ :=
      summaryOf_eq_some telemetry.operations.length durationMs result.skipped hlength hlater
    rw [hfound] at h
    obtain ⟨rfl, hmax⟩ := checkedSummary_eq_ok.mp h
    simp only [telemetryNumbers, List.map_cons, List.cons.injEq, List.map_map] at htotals
    have hcarried : summary.numbers.map Int.ofNat = reportedNumbers result telemetry := by
      rw [hnumbers, List.map_append, List.map_append, hcounts, htotals.2, List.map_cons,
        htotals.1]
      rfl
    refine ⟨⟨hcarried, hskipped⟩, ?_⟩
    rw [← hcarried]
    intro n hn
    obtain ⟨m, hm, rfl⟩ := List.mem_map.mp hn
    have hbound := hmax m hm
    exact ⟨Int.natCast_nonneg m, Int.ofNat_le.mpr hbound⟩

theorem completionSummary_of_bounded
    (houtputs : lookup "outputs" event = some (.obj (sortedMembers (result.outputs telemetry))))
    (hoperations : telemetry.operations.length ≤ maxOperations)
    (hbounds : ∀ n ∈ reportedNumbers result telemetry, 0 ≤ n ∧ n ≤ maxResultInteger) :
    ∃ summary, completionSummary event result.skipped = .ok summary := by
  have hmetrics : ((result.metrics.map Prod.snd).map Int.toNat).map Int.ofNat =
      result.metrics.map Prod.snd := by
    apply map_toNat
    intro n hn
    exact (hbounds n (by simp [reportedNumbers, hn])).1
  have htotals : ((telemetry.durationMs :: telemetry.totals.map Prod.snd).map Int.ofNat) =
      (telemetryNumbers telemetry).map Prod.snd := by
    simp [telemetryNumbers]
  have hcountsLength : ((result.metrics.map Prod.snd).map Int.toNat).length = 6 := rfl
  have htotalsLength : (telemetry.totals.map Prod.snd).length = 11 := rfl
  obtain ⟨found, hfound, hnumbers, -⟩ := summaryOf_eq_some telemetry.operations.length
    telemetry.durationMs result.skipped hcountsLength htotalsLength
  refine ⟨found, ?_⟩
  rw [completionSummary_eq houtputs hoperations, mapM_integer_eq_ok.mpr hmetrics,
    mapM_integer_eq_ok.mpr htotals]
  simp only [Execution.ok_bind]
  rw [hfound, checkedSummary_eq_ok]
  refine ⟨rfl, ?_⟩
  intro n hn
  have hmem : Int.ofNat n ∈ reportedNumbers result telemetry := by
    have hcarried : found.numbers.map Int.ofNat = reportedNumbers result telemetry := by
      rw [hnumbers, List.map_append, List.map_append, hmetrics]
      simp [reportedNumbers]
    rw [← hcarried]
    exact List.mem_map.mpr ⟨n, hn, rfl⟩
  exact Int.ofNat_le.mp (hbounds _ hmem).2

end Parsing

section Lines

variable {result : PipelineExecutionResult} {context : LauncherContext} {platform : String}
  {durationMs : Option ℕ} {physicalPlanRevision : Option String} {timestamp line : String}
  {event : RuntimeEvent}

theorem loads_line (hwellFormed : WellFormed (.obj event.payload))
    (hline : event.toJson = .ok line) : loads line = .ok (.obj (sortedMembers event.payload)) :=
  loads_of_dumps _ (wellFormed_sortKeys _ hwellFormed) hline

/-- How a completion line of the pipeline is parsed. -/
theorem parse_line (hwellFormed : WellFormed (.obj event.payload))
    (hline : event.toJson = .ok line) (hevent : event.event = .completed) :
    parseExecutionResultSummary event.pipelineId line =
      (do
        let skipped ← completionSkipped (event.status.map fun status => .str status.value)
        let summary ← completionSummary (sortedMembers event.payload) skipped
        return some summary) := by
  have hcompleted : lookup "event" (sortedMembers event.payload) =
      some (.str "runtime.completed") := by
    have hmem : ("event", some (.str event.event.value)) ∈ event.members := by
      simp [RuntimeEvent.members]
    rw [event.lookup_payload hmem, hevent]
    rfl
  have hcontract : lookup "contract" (sortedMembers event.payload) =
      some (.str runtimeContract) := by
    have hmem : ("contract", some (.str runtimeContract)) ∈ event.members := by
      simp [RuntimeEvent.members]
    rw [event.lookup_payload hmem]
    rfl
  have hpipeline : lookup "pipeline_id" (sortedMembers event.payload) =
      some (.str event.pipelineId) := by
    have hmem : ("pipeline_id", some (.str event.pipelineId)) ∈ event.members := by
      simp [RuntimeEvent.members]
    rw [event.lookup_payload hmem]
    rfl
  have hstatus : lookup "status" (sortedMembers event.payload) =
      event.status.map fun status => .str status.value := by
    have hmem : ("status", event.status.map fun status => .str status.value) ∈ event.members := by
      simp [RuntimeEvent.members]
    rw [event.lookup_payload hmem]
    cases event.status <;> rfl
  unfold parseExecutionResultSummary
  rw [loads_line hwellFormed hline]
  simp only [hcompleted, isText, decide_true, if_true]
  unfold parseCompletion
  rw [hcontract, hpipeline, hstatus]
  simp only [isText, decide_true, Bool.not_true, Bool.false_eq_true, if_false]
  cases completionSkipped (event.status.map fun status => .str status.value) with
  | error e => rfl
  | ok skipped =>
    simp only [Execution.ok_bind]
    cases completionSummary (sortedMembers event.payload) skipped <;> rfl

theorem parse_completed
    (hcompleted : RuntimeEvent.completed result context platform durationMs physicalPlanRevision
      timestamp = .ok event)
    (hline : event.toJson = .ok line) :
    parseExecutionResultSummary result.pipelineId line =
      (completionSummary (sortedMembers event.payload) result.skipped).map some := by
  obtain ⟨hevent, hpipeline, hstatus, -, hwellFormed⟩ := completed_eq_ok hcompleted
  rw [← hpipeline, parse_line hwellFormed hline hevent, hstatus]
  have hskipped : completionSkipped ((some (if result.skipped then RuntimeStatus.skipped
      else .succeeded)).map fun status => .str status.value) = .ok result.skipped := by
    cases result.skipped <;> rfl
  rw [hskipped, Execution.ok_bind]
  cases completionSummary (sortedMembers event.payload) result.skipped <;> rfl

/-- What a completed event's outputs are found to be. -/
theorem outputs_completed
    (hcompleted : RuntimeEvent.completed result context platform durationMs physicalPlanRevision
      timestamp = .ok event) :
    lookup "outputs" (sortedMembers event.payload) =
      some (.obj (sortedMembers (result.outputs (result.reportedTelemetry durationMs)))) := by
  obtain ⟨-, -, -, houtputs, -⟩ := completed_eq_ok hcompleted
  have hmem : ("outputs", event.outputs.map .obj) ∈ event.members := by
    simp [RuntimeEvent.members]
  rw [event.lookup_payload hmem, houtputs]
  rfl

/-- A failed attempt is reported as an error, not passed over. -/
theorem parse_failed {pipelineId stage failureCode : String} {retryable : Bool} {duration : ℕ}
    (hfailed : RuntimeEvent.failed context pipelineId platform stage failureCode retryable duration
      physicalPlanRevision timestamp = .ok event)
    (hline : event.toJson = .ok line) :
    parseExecutionResultSummary pipelineId line = .error (.collection
      "successful provider execution lacks a successful runtime completion") := by
  obtain ⟨hevent, hpipeline, hstatus, hwellFormed⟩ := failed_eq_ok hfailed
  rw [← hpipeline, parse_line hwellFormed hline hevent, hstatus]
  rfl

end Lines

section Paging

variable {readPage : Option ℕ → ℕ → Except CollectError BackendLogPage} {pipelineId : String}
  {messages first : List String} {last : String} {summary : ExecutionResultSummary}

theorem parse_eq_none_iff {message : String} :
    parseExecutionResultSummary pipelineId message = .ok none ↔ isCompletion message = false := by
  unfold parseExecutionResultSummary isCompletion
  cases loads message with
  | error e => cases e <;> simp
  | ok value =>
    cases value with
    | obj event =>
      by_cases hevent : isText "runtime.completed" (lookup "event" event) = true
      · simp only [hevent, if_true, Bool.true_eq_false, iff_false]
        cases parseCompletion pipelineId event <;> simp [Except.map]
      · simp [hevent]
    | _ => simp

theorem scanMessages_none :
    scanMessages pipelineId messages = .ok none ↔
      ∀ message ∈ messages, parseExecutionResultSummary pipelineId message = .ok none := by
  induction messages with
  | nil => simp [scanMessages]
  | cons message rest ih =>
    rw [List.forall_mem_cons, ← ih, scanMessages]
    cases hparse : parseExecutionResultSummary pipelineId message with
    | error e => simp [bind, Except.bind]
    | ok found =>
      cases found with
      | none => simp [bind, Except.bind]
      | some summary => simp [bind, Except.bind, pure, Except.pure]

theorem scanMessages_some (h : scanMessages pipelineId messages = .ok (some summary)) :
    ∃ message ∈ messages,
      parseExecutionResultSummary pipelineId message = .ok (some summary) := by
  induction messages with
  | nil => cases h
  | cons message rest ih =>
    rw [scanMessages] at h
    cases hparse : parseExecutionResultSummary pipelineId message with
    | error e => simp [hparse, bind, Except.bind] at h
    | ok found =>
      cases found with
      | none =>
        simp only [hparse, bind, Except.bind] at h
        obtain ⟨other, hmem, hother⟩ := ih h
        exact ⟨other, List.mem_cons_of_mem _ hmem, hother⟩
      | some found =>
        simp only [hparse, bind, Except.bind] at h
        cases h
        exact ⟨message, by simp, hparse⟩

theorem earlierPages_of_lt (h : first.length < logPageSize) : earlierPages first = [] := by
  unfold earlierPages
  rw [Nat.div_eq_of_lt h, Nat.zero_mul, List.take_zero]

theorem earlierPages_of_le (h : logPageSize ≤ first.length) :
    earlierPages first = first.take logPageSize ++ earlierPages (first.drop logPageSize) := by
  have hsize : logPageSize = 500 := rfl
  have hcount : first.length / logPageSize * logPageSize =
      logPageSize + (first.drop logPageSize).length / logPageSize * logPageSize := by
    rw [List.length_drop, hsize]
    rw [hsize] at h
    omega
  unfold earlierPages
  rw [hcount, List.take_add]

/-- A backend answers with these messages, page by page. -/
def Serves (readPage : Option ℕ → ℕ → Except CollectError BackendLogPage)
    (messages : List String) : Prop :=
  ∀ cursor, readPage cursor logPageSize =
    .ok ⟨(messages.drop (cursor.getD 0)).take logPageSize,
      if cursor.getD 0 + logPageSize < messages.length then some (cursor.getD 0 + logPageSize)
      else none⟩

theorem collectPages_last (hserves : Serves readPage messages) {pages : ℕ} {cursor : Option ℕ}
    (hdrop : messages.drop (cursor.getD 0) = first ++ [last])
    (hlength : first.length < logPageSize) :
    collectPages readPage pipelineId (pages + 1) cursor =
      (scanMessages pipelineId (last :: first.reverse) >>= fun found =>
        match found with
        | some summary => pure summary
        | none => throw resultUnavailable) := by
  have hpage : (first ++ [last]).take logPageSize = first ++ [last] := by
    apply List.take_of_length_le
    rw [List.length_append, List.length_singleton]
    omega
  have hnext : ¬ cursor.getD 0 + logPageSize < messages.length := by
    have hcount := congrArg List.length hdrop
    rw [List.length_drop, List.length_append, List.length_singleton] at hcount
    omega
  rw [collectPages, hserves cursor, hdrop, hpage, if_neg hnext, Execution.ok_bind]
  simp only [List.reverse_append, List.reverse_cons, List.reverse_nil, List.nil_append,
    List.cons_append]
  all_goals rfl

theorem collectPages_earlier (hserves : Serves readPage messages) {pages : ℕ}
    {cursor : Option ℕ} (hdrop : messages.drop (cursor.getD 0) = first ++ [last])
    (hlength : logPageSize ≤ first.length) :
    collectPages readPage pipelineId (pages + 1) cursor =
      (scanMessages pipelineId (first.take logPageSize).reverse >>= fun found =>
        match found with
        | some summary => pure summary
        | none => collectPages readPage pipelineId pages
            (some (cursor.getD 0 + logPageSize))) := by
  have hpage : (first ++ [last]).take logPageSize = first.take logPageSize :=
    List.take_append_of_le_length hlength
  have hnext : cursor.getD 0 + logPageSize < messages.length := by
    have hcount := congrArg List.length hdrop
    rw [List.length_drop, List.length_append, List.length_singleton] at hcount
    omega
  rw [collectPages, hserves cursor, hdrop, hpage, if_pos hnext]
  rfl

theorem drop_next {cursor : Option ℕ} (hdrop : messages.drop (cursor.getD 0) = first ++ [last])
    (hlength : logPageSize ≤ first.length) :
    messages.drop ((some (cursor.getD 0 + logPageSize)).getD 0) =
      first.drop logPageSize ++ [last] := by
  rw [Option.getD_some, ← List.drop_drop, hdrop,
    List.drop_append_of_le_length hlength]

/-- The last message is found if nothing before its page is looked at as a completion. -/
theorem collectPages_found (hserves : Serves readPage messages)
    (hlast : parseExecutionResultSummary pipelineId last = .ok (some summary)) {pages : ℕ}
    {cursor : Option ℕ} (hdrop : messages.drop (cursor.getD 0) = first ++ [last])
    (hwindow : first.length < pages * logPageSize)
    (hpages : ∀ message ∈ earlierPages first, isCompletion message = false) :
    collectPages readPage pipelineId pages cursor = .ok summary := by
  induction pages generalizing cursor first with
  | zero => exact absurd hwindow (by omega)
  | succ pages ih =>
    by_cases hlength : first.length < logPageSize
    · rw [collectPages_last hserves hdrop hlength, scanMessages, hlast]
      rfl
    · have hlength := not_lt.mp hlength
      rw [earlierPages_of_le hlength] at hpages
      have hscan : scanMessages pipelineId (first.take logPageSize).reverse = .ok none := by
        rw [scanMessages_none]
        intro message hmem
        exact parse_eq_none_iff.mpr
          (hpages message (List.mem_append_left _ (List.mem_reverse.mp hmem)))
      rw [collectPages_earlier hserves hdrop hlength, hscan, Execution.ok_bind]
      apply ih (drop_next hdrop hlength)
      · rw [List.length_drop]
        rw [Nat.succ_mul] at hwindow
        omega
      · intro message hmem
        exact hpages message (List.mem_append_right _ hmem)

/-- A summary that no other message gives comes from the last message, within the pages that are
read, and nothing before its page is looked at as a completion. -/
theorem collectPages_only (hserves : Serves readPage messages) {pages : ℕ} {cursor : Option ℕ}
    (hdrop : messages.drop (cursor.getD 0) = first ++ [last])
    (hother : ∀ message ∈ first,
      parseExecutionResultSummary pipelineId message ≠ .ok (some summary))
    (h : collectPages readPage pipelineId pages cursor = .ok summary) :
    parseExecutionResultSummary pipelineId last = .ok (some summary) ∧
      first.length < pages * logPageSize ∧
      ∀ message ∈ earlierPages first, isCompletion message = false := by
  induction pages generalizing cursor first with
  | zero => cases h
  | succ pages ih =>
    by_cases hlength : first.length < logPageSize
    · rw [collectPages_last hserves hdrop hlength] at h
      obtain ⟨found, hscan, hfound⟩ := Execution.bind_eq_ok h
      cases found with
      | none => cases hfound
      | some found =>
        cases hfound
        obtain ⟨message, hmem, hparse⟩ := scanMessages_some hscan
        have hsame : message = last := by
          rcases List.mem_cons.mp hmem with hsame | hmem
          · exact hsame
          · exact absurd hparse (hother message (List.mem_reverse.mp hmem))
        rw [hsame] at hparse
        refine ⟨hparse, ?_, ?_⟩
        · rw [Nat.succ_mul]
          omega
        · rw [earlierPages_of_lt hlength]
          simp
    · have hlength := not_lt.mp hlength
      rw [collectPages_earlier hserves hdrop hlength] at h
      obtain ⟨found, hscan, hfound⟩ := Execution.bind_eq_ok h
      cases found with
      | some found =>
        cases hfound
        obtain ⟨message, hmem, hparse⟩ := scanMessages_some hscan
        exact absurd hparse
          (hother message (List.mem_of_mem_take (List.mem_reverse.mp hmem)))
      | none =>
        obtain ⟨hlast, hwindow, hpages⟩ := ih (drop_next hdrop hlength)
          (fun message hmem => hother message (List.mem_of_mem_drop hmem)) hfound
        refine ⟨hlast, ?_, ?_⟩
        · rw [List.length_drop] at hwindow
          rw [Nat.succ_mul]
          omega
        · rw [earlierPages_of_le hlength]
          intro message hmem
          rcases List.mem_append.mp hmem with hmem | hmem
          · exact parse_eq_none_iff.mp
              (scanMessages_none.mp hscan message (List.mem_reverse.mpr hmem))
          · exact hpages message hmem

end Paging

section Backends

variable {lines : List String}

/-- The message of a line that may be empty. -/
def textMessage (placeholder line : String) : String :=
  boundedMessage (if line = "" then placeholder else line)

theorem mapM_logMessage (lines : List String) :
    (lines.map textEntry).mapM logMessage =
      .ok (lines.map (textMessage "(empty log entry)")) := by
  induction lines with
  | nil => rfl
  | cons line rest ih =>
    rw [List.map_cons, List.mapM_cons, ih]
    rfl

theorem served_next {α : Type} (entries : List α) (cursor : Option ℕ) :
    (if (servedPage entries cursor logPageSize).2 = cursor then none
      else (servedPage entries cursor logPageSize).2) =
      if cursor.getD 0 + logPageSize < entries.length then some (cursor.getD 0 + logPageSize)
      else none := by
  have hsize : logPageSize = 500 := rfl
  have hne : ¬ (servedPage entries cursor logPageSize).2 = cursor ∨
      (servedPage entries cursor logPageSize).2 = none := by
    cases cursor with
    | none =>
      simp only [servedPage]
      split <;> simp
    | some start =>
      simp only [servedPage, Option.getD_some]
      split
      · left
        simp only [Option.some.injEq]
        omega
      · right
        rfl
  rcases hne with hne | hnone
  · rw [if_neg hne]
    rfl
  · rw [hnone]
    have hlast : (if cursor.getD 0 + logPageSize < entries.length
        then some (cursor.getD 0 + logPageSize) else none) = none := hnone
    rw [hlast]
    simp

theorem serves_cloudRun (lines : List String) :
    Serves (cloudRunLogs (lines.map textEntry))
      (lines.map (textMessage "(empty log entry)")) := by
  intro cursor
  have hsize : ¬ (decide (logPageSize < 1) || decide (500 < logPageSize)) = true := by decide
  have hcount : ¬ logPageSize <
      (servedPage (lines.map textEntry) cursor logPageSize).1.length := by
    simp only [servedPage, List.length_take]
    omega
  have hmessages : (servedPage (lines.map textEntry) cursor logPageSize).1.mapM logMessage =
      .ok (((lines.map (textMessage "(empty log entry)")).drop (cursor.getD 0)).take
        logPageSize) := by
    rw [servedPage, ← List.map_drop, ← List.map_take, mapM_logMessage, List.map_take,
      List.map_drop]
  unfold cloudRunLogs
  rw [if_neg hsize]
  simp only
  rw [if_neg hcount, hmessages, Execution.ok_bind, served_next]
  simp only [List.length_map]
  rfl

variable {binding : Fargate.FargateBinding} {planRevision : String} {handle : BackendHandle}
  {state : Fargate.ProviderState} {taskLines : String → List String}

theorem serves_fargate (hlines : executionLines binding planRevision handle state taskLines ≠ []) :
    Serves (fargateLogs binding planRevision handle state taskLines)
      ((executionLines binding planRevision handle state taskLines).map
        (textMessage "(empty log event)")) := by
  intro cursor
  unfold executionLines at hlines ⊢
  cases htask : fargateTask binding planRevision handle state with
  | error e => simp [htask] at hlines
  | ok found =>
    cases found with
    | none => simp [htask] at hlines
    | some taskId =>
      simp only
      have hsize : ¬ (decide (logPageSize < 1) || decide (500 < logPageSize)) = true := by decide
      have hcount : ¬ logPageSize <
          (servedPage (taskLines taskId) cursor logPageSize).1.length := by
        simp only [servedPage, List.length_take]
        omega
      unfold fargateLogs
      rw [if_neg hsize, htask]
      simp only
      rw [if_neg hcount, served_next]
      simp only [servedPage, List.length_map, List.map_take, List.map_drop]
      rfl

/-- An empty line, what stands for one, and a line that is no document. -/
theorem isCompletion_plain : isCompletion (boundedMessage "") = false ∧
    isCompletion (boundedMessage "(empty log entry)") = false ∧
    isCompletion (boundedMessage "(empty log event)") = false ∧
    isCompletion (boundedMessage "x") = false := by
  decide +kernel

/-- What stands for an empty line is no completion either. -/
theorem parse_textMessage {placeholder : String}
    (hplaceholder : isCompletion (boundedMessage placeholder) = false) (pipelineId line : String) :
    parseExecutionResultSummary pipelineId (textMessage placeholder line) =
      parseExecutionResultSummary pipelineId (boundedMessage line) := by
  unfold textMessage
  by_cases hline : line = ""
  · rw [if_pos hline, hline, parse_eq_none_iff.mpr hplaceholder,
      parse_eq_none_iff.mpr isCompletion_plain.1]
  · rw [if_neg hline]

theorem isCompletion_textMessage {placeholder : String}
    (hplaceholder : isCompletion (boundedMessage placeholder) = false) (line : String) :
    isCompletion (textMessage placeholder line) = false ↔
      isCompletion (boundedMessage line) = false := by
  rw [← @parse_eq_none_iff "" _, ← @parse_eq_none_iff "" _, parse_textMessage hplaceholder]

/-- A message that was cut is not read as a document. -/
theorem parse_cut {line : String} (h : maxLogMessageLength < line.toList.length)
    (pipelineId : String) (summary : ExecutionResultSummary) :
    parseExecutionResultSummary pipelineId (boundedMessage line) ≠ .ok (some summary) := by
  have hcut : (boundedMessage line).toList =
      (line.toList.take (maxLogMessageLength - 3) ++ ['.', '.']) ++ ['.'] := by
    unfold boundedMessage
    rw [if_pos h]
    simp
  unfold parseExecutionResultSummary
  cases hloads : loads (boundedMessage line) with
  | error e => cases e <;> simp
  | ok value => exact absurd hcut (loads_ends hloads _)

end Backends

section Recovery

variable {result : PipelineExecutionResult} {context : LauncherContext} {platform : String}
  {durationMs : Option ℕ} {physicalPlanRevision : Option String} {timestamp line : String}
  {event : RuntimeEvent} {earlier : List String} {placeholder : String}
  {readPage : Option ℕ → ℕ → Except CollectError BackendLogPage}

theorem operations_reportedTelemetry (result : PipelineExecutionResult) (durationMs : Option ℕ) :
    (result.reportedTelemetry durationMs).operations = result.telemetry.operations := by
  cases durationMs <;> rfl

/-- A completion line that was not cut gives a summary exactly if its numbers are in bounds. -/
theorem parse_bounded
    (hcompleted : RuntimeEvent.completed result context platform durationMs physicalPlanRevision
      timestamp = .ok event)
    (hline : event.toJson = .ok line)
    (hoperations : result.telemetry.operations.length ≤ maxOperations)
    (hlength : line.toList.length ≤ maxLogMessageLength) :
    (∀ summary, parseExecutionResultSummary result.pipelineId (boundedMessage line) =
        .ok (some summary) →
      summary.Carries result (result.reportedTelemetry durationMs) ∧
        ∀ n ∈ reportedNumbers result (result.reportedTelemetry durationMs),
          0 ≤ n ∧ n ≤ maxResultInteger) ∧
    ((∀ n ∈ reportedNumbers result (result.reportedTelemetry durationMs),
        0 ≤ n ∧ n ≤ maxResultInteger) →
      ∃ summary, parseExecutionResultSummary result.pipelineId (boundedMessage line) =
        .ok (some summary)) := by
  have houtputs := outputs_completed hcompleted
  have hwhole : boundedMessage line = line := if_neg (by omega)
  have hcount : (result.reportedTelemetry durationMs).operations.length ≤ maxOperations := by
    rw [operations_reportedTelemetry]
    exact hoperations
  rw [hwhole, parse_completed hcompleted hline]
  constructor
  · intro summary hparse
    cases hsummary : completionSummary (sortedMembers event.payload) result.skipped with
    | error e => simp [hsummary, Except.map] at hparse
    | ok found =>
      simp only [hsummary, Except.map, Except.ok.injEq, Option.some.injEq] at hparse
      rw [← hparse]
      exact completionSummary_carries houtputs hcount hsummary
  · intro hbounds
    obtain ⟨summary, hsummary⟩ := completionSummary_of_bounded houtputs hcount hbounds
    exact ⟨summary, by rw [hsummary]; rfl⟩

theorem earlierPages_map (f : String → String) (lines : List String) :
    earlierPages (lines.map f) = (earlierPages lines).map f := by
  unfold earlierPages
  rw [List.length_map, List.map_take]

theorem recovers_of_recoverable
    (hcompleted : RuntimeEvent.completed result context platform durationMs physicalPlanRevision
      timestamp = .ok event)
    (hline : event.toJson = .ok line)
    (hoperations : result.telemetry.operations.length ≤ maxOperations)
    (hplaceholder : isCompletion (boundedMessage placeholder) = false)
    (hserves : Serves readPage ((earlier ++ [line]).map (textMessage placeholder)))
    (h : Recoverable earlier line result (result.reportedTelemetry durationMs)) :
    Recovers readPage result (result.reportedTelemetry durationMs) := by
  obtain ⟨hcarries, hfound⟩ := parse_bounded hcompleted hline hoperations h.length
  obtain ⟨summary, hsummary⟩ := hfound h.numbers
  refine ⟨summary, ?_, (hcarries summary hsummary).1⟩
  rw [← parse_textMessage hplaceholder] at hsummary
  rw [List.map_append] at hserves
  refine collectPages_found hserves hsummary rfl ?_ ?_
  · rw [List.length_map]
    exact h.window
  · rw [earlierPages_map]
    intro message hmem
    obtain ⟨other, hother, rfl⟩ := List.mem_map.mp hmem
    exact (isCompletion_textMessage hplaceholder other).mpr (h.pages other hother)

theorem recoverable_of_recovers
    (hcompleted : RuntimeEvent.completed result context platform durationMs physicalPlanRevision
      timestamp = .ok event)
    (hline : event.toJson = .ok line)
    (hoperations : result.telemetry.operations.length ≤ maxOperations)
    (hplaceholder : isCompletion (boundedMessage placeholder) = false)
    (hserves : Serves readPage ((earlier ++ [line]).map (textMessage placeholder)))
    (hother : ∀ other ∈ earlier, ∀ summary,
      parseExecutionResultSummary result.pipelineId (boundedMessage other) = .ok (some summary) →
      ¬ summary.Carries result (result.reportedTelemetry durationMs))
    (h : Recovers readPage result (result.reportedTelemetry durationMs)) :
    Recoverable earlier line result (result.reportedTelemetry durationMs) := by
  obtain ⟨summary, hcollected, hcarried⟩ := h
  rw [List.map_append] at hserves
  have honly : ∀ message ∈ earlier.map (textMessage placeholder),
      parseExecutionResultSummary result.pipelineId message ≠ .ok (some summary) := by
    intro message hmem hparse
    obtain ⟨other, hother', rfl⟩ := List.mem_map.mp hmem
    rw [parse_textMessage hplaceholder] at hparse
    exact hother other hother' summary hparse hcarried
  obtain ⟨hlast, hwindow, hpages⟩ := collectPages_only hserves rfl honly hcollected
  rw [parse_textMessage hplaceholder] at hlast
  have hlength : line.toList.length ≤ maxLogMessageLength := by
    by_contra hlong
    exact parse_cut (not_le.mp hlong) result.pipelineId summary hlast
  rw [List.length_map] at hwindow
  rw [earlierPages_map] at hpages
  refine ⟨hwindow, hlength, ?_, ?_⟩
  · exact ((parse_bounded hcompleted hline hoperations hlength).1 summary hlast).2
  · intro other hmem
    exact (isCompletion_textMessage hplaceholder other).mp
      (hpages _ (List.mem_map.mpr ⟨other, hmem, rfl⟩))

/-- A line that no earlier line stands in for is recovered by both backends exactly if it is
recoverable; a recoverable line always is. -/
theorem completion_summary_recovered_iff
    (hcompleted : RuntimeEvent.completed result context platform durationMs physicalPlanRevision
      timestamp = .ok event)
    (hline : event.toJson = .ok line)
    (hoperations : result.telemetry.operations.length ≤ maxOperations)
    {binding : Fargate.FargateBinding} {planRevision : String} {handle : BackendHandle}
    {state : Fargate.ProviderState} {taskLines : String → List String}
    (hlines : executionLines binding planRevision handle state taskLines = earlier ++ [line]) :
    (Recoverable earlier line result (result.reportedTelemetry durationMs) →
      Recovers (cloudRunLogs ((earlier ++ [line]).map textEntry)) result
          (result.reportedTelemetry durationMs) ∧
        Recovers (fargateLogs binding planRevision handle state taskLines) result
          (result.reportedTelemetry durationMs)) ∧
    ((∀ other ∈ earlier, ∀ summary,
        parseExecutionResultSummary result.pipelineId (boundedMessage other) =
          .ok (some summary) →
        ¬ summary.Carries result (result.reportedTelemetry durationMs)) →
      (Recovers (cloudRunLogs ((earlier ++ [line]).map textEntry)) result
          (result.reportedTelemetry durationMs) ↔
        Recoverable earlier line result (result.reportedTelemetry durationMs)) ∧
      (Recovers (fargateLogs binding planRevision handle state taskLines) result
          (result.reportedTelemetry durationMs) ↔
        Recoverable earlier line result (result.reportedTelemetry durationMs))) := by
  obtain ⟨-, hentry, hlogEvent, -⟩ := isCompletion_plain
  have hcloudRun := serves_cloudRun (earlier ++ [line])
  have hfargate : Serves (fargateLogs binding planRevision handle state taskLines)
      ((earlier ++ [line]).map (textMessage "(empty log event)")) := by
    rw [← hlines]
    apply serves_fargate
    rw [hlines]
    simp
  constructor
  · intro h
    exact ⟨recovers_of_recoverable hcompleted hline hoperations hentry hcloudRun h,
      recovers_of_recoverable hcompleted hline hoperations hlogEvent hfargate h⟩
  · intro hother
    constructor
    · exact ⟨recoverable_of_recovers hcompleted hline hoperations hentry hcloudRun hother,
        recovers_of_recoverable hcompleted hline hoperations hentry hcloudRun⟩
    · exact ⟨recoverable_of_recovers hcompleted hline hoperations hlogEvent hfargate hother,
        recovers_of_recoverable hcompleted hline hoperations hlogEvent hfargate⟩

end Recovery

section Example

def exampleResult : PipelineExecutionResult where
  runId := "run-1"
  pipelineId := "orders"
  source := "shop"
  endpoints := [⟨"orders", 3, 3, none⟩]
  models := []
  assertions := 0
  assets := 1
  skipped := false
  telemetry := ⟨5, []⟩

def exampleContext : LauncherContext where
  runId := "run-1"
  launcher := "cloud_run"
  executionId := none
  attempt := 2
  shardIndex := 0
  shardCount := 1
  deadlineAt := none
  principal := none

def completedEvent : RuntimeEvent where
  event := .completed
  timestamp := "t"
  runId := "run-1"
  pipelineId := "orders"
  platform := "gcp"
  stage := "complete"
  dimensions := present
    [("launcher", some (.str "cloud_run")), ("launcher_execution_id", some .null),
      ("attempt", some (.int 2)), ("shard_index", some (.int 0)), ("shard_count", some (.int 1))]
  status := some .succeeded
  outputs := some (exampleResult.outputs exampleResult.telemetry)
  failureCode := none
  retryable := some false

def failedEvent : RuntimeEvent :=
  { completedEvent with
    stage := "runtime"
    status := some .failed
    outputs := some [("telemetry", .obj (RunTelemetry.mk 5 []).payload)]
    failureCode := some "extraction_failed"
    retryable := some true }

def lineOf (event : RuntimeEvent) : String :=
  String.ofList (text ⟨false, true⟩ (sortKeys (.obj event.payload)))

theorem completedEvent_eq :
    RuntimeEvent.completed exampleResult exampleContext "gcp" none none "t" =
      .ok completedEvent := by
  rfl

theorem failedEvent_eq : RuntimeEvent.failed exampleContext "orders" "gcp" "runtime"
    "extraction_failed" true 5 none "t" = .ok failedEvent := by
  rfl

theorem toJson_eq_lineOf {event : RuntimeEvent} (h : printable (.obj event.payload) = true) :
    event.toJson = .ok (lineOf event) := by
  rw [← printable_sortKeys] at h
  exact if_pos h

theorem exampleEvents_bounded :
    (∀ event ∈ [completedEvent, failedEvent], printable (.obj event.payload) = true ∧
      (text ⟨false, true⟩ (sortKeys (.obj event.payload))).length ≤ maxLogMessageLength) ∧
    ∀ n ∈ reportedNumbers exampleResult exampleResult.telemetry,
      0 ≤ n ∧ n ≤ maxResultInteger := by
  decide +kernel

theorem line_of_example {event : RuntimeEvent} (h : event ∈ [completedEvent, failedEvent]) :
    event.toJson = .ok (lineOf event) ∧ (lineOf event).toList.length ≤ maxLogMessageLength := by
  obtain ⟨hprintable, hlength⟩ := exampleEvents_bounded.1 event h
  refine ⟨toJson_eq_lineOf hprintable, ?_⟩
  rw [lineOf, String.toList_ofList]
  exact hlength

theorem completedEvent_line : completedEvent.toJson = .ok (lineOf completedEvent) ∧
    (lineOf completedEvent).toList.length ≤ maxLogMessageLength :=
  line_of_example List.mem_cons_self

theorem failedEvent_line : failedEvent.toJson = .ok (lineOf failedEvent) ∧
    (lineOf failedEvent).toList.length ≤ maxLogMessageLength :=
  line_of_example (List.mem_cons_of_mem _ List.mem_cons_self)

/-- A failed attempt, with enough lines after it to fill the first page. -/
def retriedLines : List String := lineOf failedEvent :: List.replicate 499 "x"

/-- The failed attempt on the first page hides the completion of the attempt that succeeded. -/
theorem failed_attempt_hides_completion :
    RuntimeEvent.completed exampleResult exampleContext "gcp" none none "t" = .ok completedEvent ∧
    completedEvent.toJson = .ok (lineOf completedEvent) ∧
    RuntimeEvent.failed exampleContext "orders" "gcp" "runtime" "extraction_failed" true 5 none
      "t" = .ok failedEvent ∧
    failedEvent.toJson = .ok (lineOf failedEvent) ∧
    ¬ Recovers (cloudRunLogs ((retriedLines ++ [lineOf completedEvent]).map textEntry))
      exampleResult exampleResult.telemetry := by
  refine ⟨completedEvent_eq, completedEvent_line.1, failedEvent_eq, failedEvent_line.1, ?_⟩
  intro hrecovers
  have hfailed : parseExecutionResultSummary "orders" (boundedMessage (lineOf failedEvent)) =
      .error (.collection
        "successful provider execution lacks a successful runtime completion") := by
    have hwhole : boundedMessage (lineOf failedEvent) = lineOf failedEvent :=
      if_neg (not_lt.mpr failedEvent_line.2)
    rw [hwhole]
    exact parse_failed failedEvent_eq failedEvent_line.1
  have hother : ∀ other ∈ retriedLines, ∀ summary,
      parseExecutionResultSummary "orders" (boundedMessage other) = .ok (some summary) →
      ¬ summary.Carries exampleResult exampleResult.telemetry := by
    intro other hmem summary hparse
    rcases List.mem_cons.mp hmem with rfl | hmem
    · rw [hfailed] at hparse
      cases hparse
    · rw [List.eq_of_mem_replicate hmem] at hparse
      rw [parse_eq_none_iff.mpr isCompletion_plain.2.2.2] at hparse
      cases hparse
  have hrecoverable : Recoverable retriedLines (lineOf completedEvent) exampleResult
      exampleResult.telemetry :=
    recoverable_of_recovers completedEvent_eq completedEvent_line.1 (by decide)
      isCompletion_plain.2.1 (serves_cloudRun _) hother hrecovers
  have hlength : retriedLines.length = 500 := by
    rw [retriedLines, List.length_cons, List.length_replicate]
  have hfirst : lineOf failedEvent ∈ earlierPages retriedLines := by
    rw [earlierPages, hlength]
    exact List.mem_cons_self
  have hignored := hrecoverable.pages (lineOf failedEvent) hfirst
  rw [← @parse_eq_none_iff "orders" _, hfailed] at hignored
  cases hignored

theorem fargateTask_succeeded (task : Option (List (String × Json))) :
    fargateTask Fargate.fargateBinding exampleSha256 ⟨"b", "x"⟩ (Fargate.succeededState task) =
      .ok (some "0123456789abcdef0123456789abcdef") := by
  have hfound : Fargate.deepString Fargate.taskArnKeys Fargate.recursionLimit
      (.obj [("task_arn", .str Fargate.taskArn)]) = .ok (some Fargate.taskArn) := by
    simp [Fargate.deepString, Fargate.deepMembers, Fargate.recursionLimit, Fargate.taskArnKeys]
  have hvalid : Fargate.validatedTaskId Fargate.fargateBinding Fargate.taskArn =
      .ok "0123456789abcdef0123456789abcdef" := by
    decide +kernel
  unfold fargateTask
  rw [Fargate.describeExecution_succeeded, Execution.ok_bind, Fargate.jsonDocument_output]
  simp only [Option.getD_some, hfound, Execution.ok_bind, pure_bind, hvalid]
  rfl

theorem recoverable_alone : Recoverable [] (lineOf completedEvent) exampleResult
    exampleResult.telemetry := by
  exact ⟨by decide, completedEvent_line.2, exampleEvents_bounded.2, by simp [earlierPages]⟩

/-- The completion of a first attempt. -/
theorem completion_summary_recovered_iff_alone :
    Recovers (cloudRunLogs ([lineOf completedEvent].map textEntry)) exampleResult
        exampleResult.telemetry ∧
      Recovers (fargateLogs Fargate.fargateBinding exampleSha256 ⟨"b", "x"⟩
        (Fargate.succeededState none) fun _ => [lineOf completedEvent]) exampleResult
        exampleResult.telemetry := by
  have hlines : executionLines Fargate.fargateBinding exampleSha256 ⟨"b", "x"⟩
      (Fargate.succeededState none) (fun _ => [lineOf completedEvent]) =
      [] ++ [lineOf completedEvent] := by
    unfold executionLines
    rw [fargateTask_succeeded]
    rfl
  exact (completion_summary_recovered_iff completedEvent_eq completedEvent_line.1 (by decide)
    hlines).1 recoverable_alone

end Example

end Dander.Orchestration
