import Dander.FargateExecution
import Dander.RunLifecycleSafety
import Dander.RunTransitions

/-!
# Reconciling what Fargate reports

Each poll recomputes outcome, summary and cleanup from what the provider answers then, and a
run's record only moves forward. The reports of an execution that the record can follow are
those that never go back on what an earlier report established.
-/
namespace Dander.Fargate

open Interleaving JsonText Lifecycle ObjectStore Orchestration

section Polls

variable (sha256 : String → String) (registry : Registry) (handle : BackendHandle)

/-- The run is reconciled while nobody else writes, and the backend answers with the
observation. -/
def poll (current : StoredRun × World) (observation : BackendObservation) :
    Except LifecycleError (StoredRun × World) :=
  let answered := (reconcileStored sha256 registry current.1).run
    (Lifecycle.serve ⟨observation.observedAt, handle, observation⟩) current.2
  answered.1.map fun stored => (stored, answered.2)

def feed (current : StoredRun × World) (observations : List BackendObservation) :
    Except LifecycleError (StoredRun × World) :=
  observations.foldlM (poll sha256 registry handle) current

end Polls

section Reports

/-- How the provider says that the execution ended, with what it says of the task. -/
structure Ending where
  outcome : RunOutcome
  resultSummary : Option ExecutionResultSummary
  cleanupState : CleanupState

def Ending.resultsState (e : Ending) : ResultsState :=
  if e.outcome = .succeeded then .available else .unavailable

/-- The task that the output or the history of an execution names. -/
def namedTask (state : ProviderState) (execution : Execution) (status : TerminalStatus) :
    Option String :=
  let output := (jsonDocument execution.output).getD .null
  match deepString taskArnKeys recursionLimit (.arr [output, .arr (executionHistory status state)])
  with
  | .ok taskArn => taskArn
  | .error _ => none

def ending (binding : FargateBinding) (state : ProviderState) : Option Ending := do
  let execution ← state.execution
  let status ← terminalStatus execution.status
  return {
    outcome := outcomeOf status
    resultSummary := if outcomeOf status = .succeeded then state.resultSummary else none
    cleanupState := cleanupState binding (namedTask state execution status) state }

/-- A later ending that an earlier one leaves possible. -/
structure Ending.Continues (e last : Ending) : Prop where
  outcome : e.outcome = last.outcome
  resultSummary : e.resultSummary = last.resultSummary
  cleanupState : e.cleanupState ∈ allowedCleanup last.cleanupState

/-- No report goes back on the last ending, and none that is recorded predates the run, until
an ending with confirmed cleanup. -/
def Regular (binding : FargateBinding) (createdAt : ℤ) :
    Option String → Option Ending → List ProviderState → Prop
  | _, _, [] => True
  | stage, last, state :: rest =>
    match ending binding state, last with
    | none, some last => Regular binding createdAt stage (some last) rest
    | none, none => (stage = some "running" ∨ createdAt ≤ state.now) ∧
        Regular binding createdAt (some "running") none rest
    | some e, last => createdAt ≤ state.now ∧ (∀ l ∈ last, e.Continues l) ∧
        (e.cleanupState = .confirmed ∨ Regular binding createdAt stage (some e) rest)

def runningObservation (now : ℤ) : BackendObservation where
  executionState := .running
  outcome := .unknown
  resultsState := .pending
  cleanupState := .pending
  observedAt := now
  stage := some "running"
  resultSummary := none

def Ending.observation (e : Ending) (stage : String) (now : ℤ) : BackendObservation where
  executionState := .terminal
  outcome := e.outcome
  resultsState := e.resultsState
  cleanupState := e.cleanupState
  observedAt := now
  stage := some stage
  resultSummary := e.resultSummary

/-- Summaries belong to successes. -/
structure Ending.Valid (e : Ending) : Prop where
  known : e.outcome ≠ .unknown
  summary : e.resultSummary.isSome ↔ e.outcome = .succeeded

variable {binding : FargateBinding} {planRevision : String} {handle : BackendHandle}
  {state : ProviderState} {reported : FargateObservation}

theorem describeExecution_eq_ok {execution : Execution}
    (h : describeExecution handle planRevision state = .ok execution) :
    state.execution = some execution := by
  unfold describeExecution at h
  split at h
  next described hdescribed =>
    obtain ⟨-, h⟩ := Execution.guard_eq_ok h
    split at h
    · split at h
      · split at h
        · cases h
          exact hdescribed
        · cases h
      · cases h
    · cases h
  · cases h

theorem isSummary_normalizedStage (status : TerminalStatus) :
    isSummary (normalizedStage status) = true := by
  cases status <;> decide +kernel

/-- An observation is computed from the status of the execution alone, or from its ending. -/
theorem observe_eq_ok (h : observe (some binding) planRevision handle state = .ok reported) :
    (ending binding state = none ∧ reported.observation = runningObservation state.now) ∨
      ∃ e stage, ending binding state = some e ∧ e.Valid ∧ isSummary stage = true ∧
        reported.observation = e.observation stage state.now := by
  unfold observe at h
  obtain ⟨execution, hdescribed, h⟩ := Execution.bind_eq_ok h
  have hexecution := describeExecution_eq_ok hdescribed
  by_cases hrunning : execution.status = "RUNNING"
  · rw [if_pos hrunning] at h
    cases h
    left
    refine ⟨?_, rfl⟩
    simp [ending, hexecution, hrunning, terminalStatus]
  · rw [if_neg hrunning] at h
    cases hstatus : terminalStatus execution.status with
    | none => simp [hstatus] at h
    | some status =>
      simp only [hstatus] at h
      right
      unfold observeTerminal at h
      obtain ⟨taskArn, htask, h⟩ := Execution.bind_eq_ok h
      obtain ⟨failureCode, -, h⟩ := Execution.bind_eq_ok h
      obtain ⟨summary, hsummary, h⟩ := Execution.bind_eq_ok h
      cases h
      have hnamed : namedTask state execution status = taskArn := by
        simp only [namedTask, htask]
      have hcollected : summary =
          if outcomeOf status = .succeeded then state.resultSummary else none := by
        unfold collectSummary at hsummary
        split at hsummary
        next hsucceeded =>
          rw [if_pos hsucceeded]
          cases hresult : state.resultSummary <;> simp_all
        next hother =>
          cases hsummary
          rw [if_neg hother]
      have hpresent : summary.isSome ↔ outcomeOf status = .succeeded := by
        unfold collectSummary at hsummary
        split at hsummary
        next hsucceeded =>
          cases hresult : state.resultSummary <;> simp_all
        next hother =>
          cases hsummary
          simp [hother]
      have hknown : outcomeOf status ≠ .unknown := by cases status <;> decide
      refine ⟨⟨outcomeOf status, summary, cleanupState binding taskArn state⟩,
        normalizedStage status, ?_, ⟨hknown, hpresent⟩, isSummary_normalizedStage status, rfl⟩
      simp [ending, hexecution, hstatus, hnamed, hcollected]

end Reports

section Records

variable (sha256 : String → String)

/-- The constructor's checks of the attempt. -/
structure Identified (record : RunRecord) : Prop where
  counted : (record.attemptCount == 0) = record.currentAttemptId.isNone
  deterministic : ∀ attemptId ∈ record.currentAttemptId,
    attemptIdentity sha256 record.runId record.attemptCount = .ok attemptId

/-- A summary belongs to an available success. -/
def Summarized (record : RunRecord) : Prop :=
  record.resultSummary.isSome →
    record.runState = .terminal ∧ record.outcome = .succeeded ∧ record.resultsState = .available

variable {sha256} {record : RunRecord}

theorem stage_malformed_iff : record.stage.any (fun stage => !isSummary stage) = true ↔
    ¬ ∀ stage ∈ record.stage, isSummary stage = true := by
  cases record.stage <;> simp

theorem not_summarized_iff : (record.resultSummary.isSome && (record.runState ≠ .terminal ||
      record.outcome ≠ .succeeded || record.resultsState ≠ .available)) = true ↔
    ¬ Summarized record := by
  unfold Summarized
  simp only [Bool.and_eq_true, Bool.or_eq_true, decide_eq_true_eq, ne_eq]
  tauto

theorem validateRunRecord_eq_ok (h : validateRunRecord sha256 record = .ok ()) :
    record.createdAt ≤ record.updatedAt ∧ Identified sha256 record ∧
      (∀ stage ∈ record.stage, isSummary stage = true) ∧ Summarized record ∧
      validateRunDimensions record = .ok () := by
  unfold validateRunRecord at h
  obtain ⟨htime, h⟩ := Execution.guard_eq_ok h
  obtain ⟨hcounted, h⟩ := Execution.guard_eq_ok h
  have hcounted : (record.attemptCount == 0) = record.currentAttemptId.isNone := by
    simpa using hcounted
  have hrest : Identified sha256 record ∧
      (∀ stage ∈ record.stage, isSummary stage = true) ∧ Summarized record ∧
      validateRunDimensions record = .ok () := by
    cases hid : record.currentAttemptId with
    | none =>
      simp only [hid, Option.isSome_none, Bool.false_eq_true, if_false] at h
      obtain ⟨hstage, h⟩ := Execution.guard_eq_ok h
      obtain ⟨hsummary, h⟩ := Execution.guard_eq_ok h
      rw [stage_malformed_iff, not_not] at hstage
      rw [not_summarized_iff, not_not] at hsummary
      exact ⟨⟨hcounted, by simp [hid]⟩, hstage, hsummary, h⟩
    | some attemptId =>
      simp only [hid, Option.isSome_some, if_true] at h
      obtain ⟨expected, hexpected, h⟩ := Execution.bind_eq_ok h
      obtain ⟨hsame, h⟩ := Execution.guard_eq_ok h
      obtain ⟨hstage, h⟩ := Execution.guard_eq_ok h
      obtain ⟨hsummary, h⟩ := Execution.guard_eq_ok h
      rw [stage_malformed_iff, not_not] at hstage
      rw [not_summarized_iff, not_not] at hsummary
      have hsame : attemptId = expected := by simpa using hsame
      refine ⟨⟨hcounted, ?_⟩, hstage, hsummary, h⟩
      intro other hother
      obtain rfl : attemptId = other := by simpa [hid] using hother
      rw [hexpected, hsame]
  exact ⟨not_lt.mp htime, hrest⟩

theorem validateRunRecord_of_checks (htime : record.createdAt ≤ record.updatedAt)
    (hidentified : Identified sha256 record)
    (hstage : ∀ stage ∈ record.stage, isSummary stage = true) (hsummary : Summarized record)
    (hdimensions : validateRunDimensions record = .ok ()) :
    validateRunRecord sha256 record = .ok () := by
  have hstage' := mt stage_malformed_iff.mp (not_not.mpr hstage)
  have hsummary' := mt not_summarized_iff.mp (not_not.mpr hsummary)
  have hcounted : ¬ ((record.attemptCount == 0) != record.currentAttemptId.isNone) = true := by
    simp [hidentified.counted]
  unfold validateRunRecord
  rw [if_neg (not_lt.mpr htime), if_neg hcounted]
  cases hid : record.currentAttemptId with
  | none =>
    rw [if_neg (by simp), if_neg hstage', if_neg hsummary']
    exact hdimensions
  | some attemptId =>
    have hexpected := hidentified.deterministic attemptId (by simp [hid])
    rw [if_pos (by simp), hexpected]
    show (if some attemptId ≠ some attemptId then _ else _) = _
    rw [if_neg (by simp), if_neg hstage', if_neg hsummary']
    exact hdimensions

end Records

section Following

/-- The record of a run whose execution was not seen to end. -/
structure Unended (record : RunRecord) : Prop where
  runState : record.runState = .running ∨ record.runState = .canceling
  outcome : record.outcome = .unknown
  resultsState : record.resultsState = .pending
  cleanupState : record.cleanupState = .pending
  resultSummary : record.resultSummary = none
  terminalAt : record.terminalAt = none

structure Ended (e : Ending) (record : RunRecord) : Prop where
  runState : record.runState = .terminal
  outcome : record.outcome = e.outcome
  resultsState : record.resultsState = e.resultsState
  cleanupState : record.cleanupState = e.cleanupState
  resultSummary : record.resultSummary = e.resultSummary
  valid : e.Valid

def Progress : Option Ending → RunRecord → Prop
  | none, record => Unended record
  | some e, record => Ended e record

/-- The record of a run whose execution was last seen to end so. -/
structure Mirrors (sha256 : String → String) (registry : Registry) (handle : BackendHandle)
    (plan : ExecutionPlan) (createdAt : ℤ) (last : Option Ending) (record : RunRecord) :
    Prop where
  identified : Identified sha256 record
  backendHandle : record.backendHandle = some handle
  selected : registry.select record = .ok plan
  created : record.createdAt = createdAt
  stage : ∀ stage ∈ record.stage, isSummary stage = true
  progress : Progress last record

def Ending.changes (e : Ending) (stage : String) : RunChanges where
  outcome := some e.outcome
  resultsState := some e.resultsState
  cleanupState := some e.cleanupState
  stage := some stage
  resultSummary := e.resultSummary

variable {sha256 : String → String} {registry : Registry} {handle : BackendHandle}
  {plan : ExecutionPlan} {createdAt now : ℤ} {last : Option Ending} {record : RunRecord}

theorem mirrors_of_valid (hvalid : validateRunRecord sha256 record = .ok ())
    (hstate : record.runState = .running ∨ record.runState = .canceling)
    (hhandle : record.backendHandle = some handle)
    (hselected : registry.select record = .ok plan) :
    Mirrors sha256 registry handle plan record.createdAt none record := by
  obtain ⟨-, hidentified, hstage, hsummary, hdimensions⟩ := validateRunRecord_eq_ok hvalid
  have hactive : record.runState ≠ .terminal := by
    rcases hstate with h | h <;> simp [h]
  have hnone : record.resultSummary = none := by
    by_contra hsome
    exact hactive (hsummary (Option.isSome_iff_ne_none.mpr hsome)).1
  have hunended : Unended record := by
    unfold validateRunDimensions at hdimensions
    rw [if_pos hactive] at hdimensions
    by_cases houtcome : record.outcome = .unknown
    · by_cases hresults : record.resultsState = .pending
      · by_cases hcleanup : record.cleanupState = .pending
        · by_cases htime : record.terminalAt = none
          · exact ⟨hstate, houtcome, hresults, hcleanup, hnone, htime⟩
          · have hset : record.terminalAt.isSome = true := Option.isSome_iff_ne_none.mpr htime
            simp [houtcome, hresults, hcleanup, hset] at hdimensions
        · simp [houtcome, hresults, hcleanup] at hdimensions
      · simp [houtcome, hresults] at hdimensions
    · simp [houtcome] at hdimensions
  exact ⟨hidentified, hhandle, hselected, rfl, hstage, hunended⟩

/-- A run that is not over accepts the stage of a running execution unless the clock is behind. -/
theorem permitted_running (hmirrors : Mirrors sha256 registry handle plan createdAt none record)
    {next : HostedRunState} (hnext : next ∈ allowedStates record.runState)
    (hactive : next = .running ∨ next = .canceling) :
    Permitted sha256 record next now { stage := some "running" } ↔ createdAt ≤ now := by
  have hunended : Unended record := hmirrors.progress
  have hcreated := hmirrors.created
  constructor
  · intro h
    have htime := (validateRunRecord_eq_ok h.valid).1
    rw [← hcreated]
    exact htime
  · intro htime
    have hrunning : ∀ stage ∈ (some "running" : Option String), isSummary stage = true := by
      intro stage hmem
      cases hmem
      decide +kernel
    have hdimensions : validateRunDimensions
        (record.changed next now { stage := some "running" }) = .ok () := by
      rcases hactive with rfl | rfl <;>
        simp [validateRunDimensions, RunRecord.changed, hunended.outcome, hunended.resultsState,
          hunended.cleanupState, hunended.terminalAt, hmirrors.backendHandle]
    have hvalid : validateRunRecord sha256
        (record.changed next now { stage := some "running" }) = .ok () := by
      apply validateRunRecord_of_checks
      · show record.createdAt ≤ now
        rw [hcreated]
        exact htime
      · exact ⟨hmirrors.identified.counted, hmirrors.identified.deterministic⟩
      · exact hrunning
      · intro hset
        simp [RunRecord.changed, hunended.resultSummary] at hset
      · exact hdimensions
    exact ⟨hnext, fun _ => rfl, fun _ => rfl,
      by simp [RunRecord.changed, hunended.cleanupState, allowedCleanup],
      by simp [hunended.resultSummary], by simp [RunRecord.changed, hunended.resultsState], hvalid⟩

theorem Ending.Valid.resultSummary_eq_none {e : Ending} (h : e.Valid) :
    e.resultSummary = none ↔ e.outcome ≠ .succeeded := by
  rw [← not_iff_not, not_not, ← h.summary, Option.isSome_iff_ne_none]

/-- Endings that agree on the outcome both have a summary or both have none. -/
theorem Ending.Valid.merged {e l : Ending} (he : e.Valid) (hl : l.Valid)
    (hsame : e.outcome = l.outcome) : (e.resultSummary <|> l.resultSummary) = e.resultSummary := by
  cases hsummary : e.resultSummary with
  | some summary => rfl
  | none =>
    have hnone : l.resultSummary = none := by
      rw [hl.resultSummary_eq_none, ← hsame, ← he.resultSummary_eq_none]
      exact hsummary
    rw [hnone]
    rfl

/-- The record accepts an ending that continues the last one. -/
theorem permitted_ending (hmirrors : Mirrors sha256 registry handle plan createdAt last record)
    {e : Ending} {stage : String} (he : e.Valid) (hstage : isSummary stage = true) :
    Permitted sha256 record .terminal now (e.changes stage) ↔
      createdAt ≤ now ∧ ∀ l ∈ last, e.Continues l := by
  have hcreated := hmirrors.created
  constructor
  · intro h
    have htime := (validateRunRecord_eq_ok h.valid).1
    rw [← hcreated]
    refine ⟨htime, ?_⟩
    intro l hl
    cases hl
    have hended : Ended l record := hmirrors.progress
    have houtcome : e.outcome = l.outcome := by
      rw [← hended.outcome]
      exact h.outcome (by rw [hended.outcome]; exact hended.valid.known)
    have hcleanup : e.cleanupState ∈ allowedCleanup l.cleanupState := by
      rw [← hended.cleanupState]
      exact h.cleanupState
    have hsummary : e.resultSummary = l.resultSummary := by
      cases hl : l.resultSummary with
      | none =>
        rw [he.resultSummary_eq_none, houtcome, ← hended.valid.resultSummary_eq_none]
        exact hl
      | some summary =>
        have hkept : (e.resultSummary <|> record.resultSummary) = record.resultSummary :=
          h.resultSummary (by rw [hended.resultSummary, hl]; rfl)
        rw [hended.resultSummary, he.merged hended.valid houtcome] at hkept
        rw [hkept, hl]
    exact ⟨houtcome, hsummary, hcleanup⟩
  · rintro ⟨htime, hcontinues⟩
    have hsummary : (record.changed .terminal now (e.changes stage)).resultSummary =
        e.resultSummary := by
      show (e.resultSummary <|> record.resultSummary) = e.resultSummary
      cases last with
      | none =>
        have hunended : Unended record := hmirrors.progress
        rw [hunended.resultSummary]
        cases e.resultSummary <;> rfl
      | some l =>
        have hended : Ended l record := hmirrors.progress
        rw [hended.resultSummary]
        exact he.merged hended.valid (hcontinues l rfl).outcome
    have hvalid : validateRunRecord sha256
        (record.changed .terminal now (e.changes stage)) = .ok () := by
      apply validateRunRecord_of_checks
      · show record.createdAt ≤ now
        rw [hcreated]
        exact htime
      · exact ⟨hmirrors.identified.counted, hmirrors.identified.deterministic⟩
      · intro shown hshown
        cases hshown
        exact hstage
      · intro hset
        rw [hsummary, he.summary] at hset
        have hresults : e.resultsState = .available := if_pos hset
        exact ⟨rfl, hset, hresults⟩
      · cases hterminal : record.terminalAt <;>
          simp [validateRunDimensions, RunRecord.changed, hterminal]
    have hstate : HostedRunState.terminal ∈ allowedStates record.runState := by
      cases record.runState <;> decide
    refine ⟨hstate, ?_, ?_, ?_, ?_, ?_, hvalid⟩
    · intro hknown
      cases last with
      | none => exact absurd (hmirrors.progress : Unended record).outcome hknown
      | some l =>
        have hended : Ended l record := hmirrors.progress
        show e.outcome = record.outcome
        rw [hended.outcome, (hcontinues l rfl).outcome]
    · intro hknown
      cases last with
      | none => exact absurd (hmirrors.progress : Unended record).resultsState hknown
      | some l =>
        have hended : Ended l record := hmirrors.progress
        show e.resultsState = record.resultsState
        rw [hended.resultsState, Ending.resultsState, Ending.resultsState,
          (hcontinues l rfl).outcome]
    · show e.cleanupState ∈ allowedCleanup record.cleanupState
      cases last with
      | none =>
        rw [(hmirrors.progress : Unended record).cleanupState]
        cases e.cleanupState <;> decide
      | some l =>
        rw [(hmirrors.progress : Ended l record).cleanupState]
        exact (hcontinues l rfl).cleanupState
    · intro hset
      rw [hsummary]
      cases last with
      | none =>
        rw [(hmirrors.progress : Unended record).resultSummary] at hset
        cases hset
      | some l =>
        rw [(hmirrors.progress : Ended l record).resultSummary, (hcontinues l rfl).resultSummary]
    · intro havailable
      rw [hsummary, he.summary]
      by_contra hother
      have hunavailable : e.resultsState = .unavailable := if_neg hother
      have hsame : e.resultsState = .available := havailable
      rw [hunavailable] at hsame
      cases hsame

theorem mirrors_running (hmirrors : Mirrors sha256 registry handle plan createdAt none record)
    {next : HostedRunState} (hactive : next = .running ∨ next = .canceling) :
    Mirrors sha256 registry handle plan createdAt none
      (record.changed next now { stage := some "running" }) := by
  have hunended : Unended record := hmirrors.progress
  refine ⟨⟨hmirrors.identified.counted, hmirrors.identified.deterministic⟩, ?_,
    hmirrors.selected, hmirrors.created, ?_, ?_⟩
  · exact hmirrors.backendHandle
  · intro stage hstage
    cases hstage
    decide +kernel
  · refine ⟨hactive, hunended.outcome, hunended.resultsState, hunended.cleanupState, ?_, ?_⟩
    · exact hunended.resultSummary
    · rcases hactive with rfl | rfl <;> simp [RunRecord.changed, hunended.terminalAt]

theorem mirrors_ending (hmirrors : Mirrors sha256 registry handle plan createdAt last record)
    {e : Ending} {stage : String} (he : e.Valid) (hstage : isSummary stage = true)
    (hcontinues : ∀ l ∈ last, e.Continues l) :
    Mirrors sha256 registry handle plan createdAt (some e)
      (record.changed .terminal now (e.changes stage)) := by
  have hsummary : (e.resultSummary <|> record.resultSummary) = e.resultSummary := by
    cases last with
    | none =>
      rw [(hmirrors.progress : Unended record).resultSummary]
      cases e.resultSummary <;> rfl
    | some l =>
      have hended : Ended l record := hmirrors.progress
      rw [hended.resultSummary]
      exact he.merged hended.valid (hcontinues l rfl).outcome
  refine ⟨⟨hmirrors.identified.counted, hmirrors.identified.deterministic⟩,
    hmirrors.backendHandle, hmirrors.selected, hmirrors.created, ?_, ?_⟩
  · intro shown hshown
    cases hshown
    exact hstage
  · exact ⟨rfl, rfl, rfl, rfl, hsummary, he⟩

/-- Whether a run that follows its execution needs another poll. -/
theorem Mirrors.needs (hmirrors : Mirrors sha256 registry handle plan createdAt last record) :
    runNeedsReconciliation record = true ↔ ∀ l ∈ last, l.cleanupState ≠ .confirmed := by
  cases last with
  | none =>
    have hunended : Unended record := hmirrors.progress
    simp [runNeedsReconciliation, hunended.outcome]
  | some l =>
    have hended : Ended l record := hmirrors.progress
    have hresults : l.resultsState ≠ .pending := by
      unfold Ending.resultsState
      split <;> simp
    simp [runNeedsReconciliation, hended.runState, hended.outcome, hended.resultsState,
      hended.cleanupState, hended.valid.known, hresults]

theorem observedRecord_running (hunended : Unended record) :
    observedRecord sha256 record (runningObservation now) =
      if record.stage = some "running" then .ok none
      else (transitionRun sha256 record record.runState now { stage := some "running" }).map
        some := by
  have hsame : (if record.runState = .canceling then HostedRunState.canceling else .running) =
      record.runState := by
    rcases hunended.runState with h | h <;> simp [h]
  have hactive : record.runState ≠ .terminal := by
    rcases hunended.runState with h | h <;> simp [h]
  unfold observedRecord
  rw [if_neg (by simp [runningObservation]), if_neg hactive]
  simp only [hsame]
  by_cases hstage : record.stage = some "running"
  · simp [hstage, runningObservation]
  · rw [if_neg (by simp [runningObservation, hstage]), if_neg hstage]
    show (transitionRun sha256 record record.runState now { stage := some "running" } >>=
      fun updated => pure (some updated)) = _
    cases transitionRun sha256 record record.runState now { stage := some "running" } <;> rfl

theorem observed_running (hmirrors : Mirrors sha256 registry handle plan createdAt none record)
    (hregular : record.stage = some "running" ∨ createdAt ≤ now) :
    ∃ updated, observedRecord sha256 record (runningObservation now) = .ok updated ∧
      Mirrors sha256 registry handle plan createdAt none (updated.getD record) ∧
      (updated.getD record).stage = some "running" := by
  have hunended : Unended record := hmirrors.progress
  rw [observedRecord_running hunended]
  by_cases hstage : record.stage = some "running"
  · rw [if_pos hstage]
    exact ⟨none, rfl, hmirrors, hstage⟩
  · rw [if_neg hstage]
    have hnext : record.runState ∈ allowedStates record.runState := by
      rcases hunended.runState with h | h <;> simp [h, allowedStates]
    have hpermitted := (permitted_running hmirrors hnext hunended.runState).mpr
      (hregular.resolve_left hstage)
    rw [transitionRun_eq_ok_iff.mpr ⟨hpermitted, rfl⟩]
    exact ⟨_, rfl, mirrors_running hmirrors hunended.runState, rfl⟩

theorem observed_running_rejected
    (hmirrors : Mirrors sha256 registry handle plan createdAt none record)
    (hregular : ¬ (record.stage = some "running" ∨ createdAt ≤ now)) :
    ∃ e, observedRecord sha256 record (runningObservation now) = .error e := by
  have hunended : Unended record := hmirrors.progress
  obtain ⟨hstage, htime⟩ := not_or.mp hregular
  rw [observedRecord_running hunended, if_neg hstage]
  have hnext : record.runState ∈ allowedStates record.runState := by
    rcases hunended.runState with h | h <;> simp [h, allowedStates]
  cases hmoved : transitionRun sha256 record record.runState now { stage := some "running" } with
  | error e => exact ⟨e, rfl⟩
  | ok updated =>
    obtain ⟨hpermitted, -⟩ := transitionRun_eq_ok_iff.mp hmoved
    exact absurd ((permitted_running hmirrors hnext hunended.runState).mp hpermitted) htime

theorem observedRecord_ending (e : Ending) (stage : String) :
    observedRecord sha256 record (e.observation stage now) =
      (transitionRun sha256 record .terminal now (e.changes stage)).map some := by
  have hterminal : (e.observation stage now).executionState = .terminal := rfl
  unfold observedRecord
  rw [if_pos hterminal]
  show (transitionRun sha256 record .terminal now (e.changes stage) >>= fun updated =>
    pure (some updated)) = _
  cases transitionRun sha256 record .terminal now (e.changes stage) <;> rfl

theorem observed_ending (hmirrors : Mirrors sha256 registry handle plan createdAt last record)
    {e : Ending} {stage : String} (he : e.Valid) (hstage : isSummary stage = true)
    (htime : createdAt ≤ now) (hcontinues : ∀ l ∈ last, e.Continues l) :
    ∃ updated, observedRecord sha256 record (e.observation stage now) = .ok (some updated) ∧
      Mirrors sha256 registry handle plan createdAt (some e) updated := by
  have hpermitted := (permitted_ending hmirrors he hstage).mpr ⟨htime, hcontinues⟩
  refine ⟨record.changed .terminal now (e.changes stage), ?_,
    mirrors_ending hmirrors he hstage hcontinues⟩
  rw [observedRecord_ending, transitionRun_eq_ok_iff.mpr ⟨hpermitted, rfl⟩]
  rfl

theorem observed_ending_rejected
    (hmirrors : Mirrors sha256 registry handle plan createdAt last record)
    {e : Ending} {stage : String} (he : e.Valid) (hstage : isSummary stage = true)
    (hirregular : ¬ (createdAt ≤ now ∧ ∀ l ∈ last, e.Continues l)) :
    ∃ error, observedRecord sha256 record (e.observation stage now) = .error error := by
  rw [observedRecord_ending]
  cases hmoved : transitionRun sha256 record .terminal now (e.changes stage) with
  | error error => exact ⟨error, rfl⟩
  | ok updated =>
    obtain ⟨hpermitted, -⟩ := transitionRun_eq_ok_iff.mp hmoved
    exact absurd ((permitted_ending hmirrors he hstage).mp hpermitted) hirregular

theorem observed_over {l : Ending} (hended : Ended l record) :
    observedRecord sha256 record (runningObservation now) = .ok none := by
  unfold observedRecord
  rw [if_neg (by simp [runningObservation]), if_pos hended.runState]

end Following

section Feeding

variable {sha256 : String → String} {registry : Registry} {handle : BackendHandle}
  {plan : ExecutionPlan} {createdAt : ℤ} {last : Option Ending}
  {current : StoredRun × World} {observation : BackendObservation}

/-- The stored run is the newest snapshot. -/
def Newest (current : StoredRun × World) : Prop :=
  tag current.2.snapshots current.1.record.runId = some current.1.revision

theorem poll_settled (hsettled : runNeedsReconciliation current.1.record = false) :
    poll sha256 registry handle current observation = .ok current := by
  simp [poll, reconcileStored, hsettled, Prog.run, Except.map]

theorem feed_settled (hsettled : runNeedsReconciliation current.1.record = false)
    (observations : List BackendObservation) :
    feed sha256 registry handle current observations = .ok current := by
  unfold feed
  induction observations with
  | nil => rfl
  | cons first rest ih =>
    rw [List.foldlM_cons, poll_settled hsettled]
    exact ih

theorem Mirrors.dispatched {record : RunRecord}
    (hmirrors : Mirrors sha256 registry handle plan createdAt last record) :
    record.runState ∉ [HostedRunState.queued, .retrying] := by
  cases last with
  | none =>
    rcases (hmirrors.progress : Unended record).runState with h | h <;> simp [h]
  | some l => simp [(hmirrors.progress : Ended l record).runState]

/-- A poll of a run that needs one, down to what is saved. -/
theorem poll_eq (hmirrors : Mirrors sha256 registry handle plan createdAt last current.1.record)
    (hneeds : runNeedsReconciliation current.1.record = true) :
    poll sha256 registry handle current observation =
      let answered := (observeStored sha256 current.1 plan handle).run
        (Lifecycle.serve ⟨observation.observedAt, handle, observation⟩) current.2
      answered.1.map fun stored => (stored, answered.2) := by
  unfold poll reconcileStored
  simp only [hneeds, Bool.not_true, Bool.false_eq_true, if_false, hmirrors.selected, liftRegistry,
    Prog.ret_bind]
  rw [if_neg hmirrors.dispatched]
  simp only [hmirrors.backendHandle]
  by_cases hcanceling : current.1.record.runState = .canceling
  · rw [if_pos hcanceling]
    rfl
  · rw [if_neg hcanceling]

theorem poll_rejected (hmirrors : Mirrors sha256 registry handle plan createdAt last
      current.1.record)
    (hneeds : runNeedsReconciliation current.1.record = true) {e : ContractError}
    (hrejected : observedRecord sha256 current.1.record observation = .error e) :
    poll sha256 registry handle current observation = .error (.contract e) := by
  rw [poll_eq hmirrors hneeds]
  simp only [observeStored, Prog.run, Lifecycle.serve, World.observe, hrejected, liftContract,
    Prog.raise_bind]
  rfl

theorem poll_observed (hmirrors : Mirrors sha256 registry handle plan createdAt last
      current.1.record)
    (hneeds : runNeedsReconciliation current.1.record = true) (hnewest : Newest current)
    {updated : Option RunRecord}
    (hobserved : observedRecord sha256 current.1.record observation = .ok updated)
    (hkept : ∀ next ∈ updated, current.1.record.identity = next.identity) :
    ∃ next, poll sha256 registry handle current observation = .ok next ∧ Newest next ∧
      next.1.record = updated.getD current.1.record := by
  rw [poll_eq hmirrors hneeds]
  have hsnapshots : (if observation.executionState = .terminal then
      { current.2 with ended := handle :: current.2.ended } else current.2).snapshots =
      current.2.snapshots := by
    split <;> rfl
  unfold observeStored
  simp only [Prog.run, Lifecycle.serve, World.observe, hobserved, liftContract, Prog.ret_bind]
  generalize (if observation.executionState = .terminal then
      { current.2 with ended := handle :: current.2.ended } else current.2) = world at hsnapshots ⊢
  have hunchanged : Newest (current.1, world) := by
    unfold Newest
    rw [hsnapshots]
    exact hnewest
  cases updated with
  | none => exact ⟨(current.1, world), rfl, hunchanged, rfl⟩
  | some updated =>
    by_cases hsame : updated = current.1.record
    · simp only [hsame, if_true]
      exact ⟨(current.1, world), rfl, hunchanged, rfl⟩
    · have hidentity := hkept updated rfl
      have hrunId : updated.runId = current.1.record.runId :=
        (congrArg RunIdentity.runId hidentity).symm
      have hcurrent : tag world.snapshots updated.runId = some current.1.revision := by
        rw [hrunId]
        exact hunchanged
      simp only [if_neg hsame, Prog.run, Lifecycle.serve, World.save,
        sameRunIdentity_iff.mpr hidentity, hcurrent]
      refine ⟨(⟨updated, world.snapshots.length⟩, { world with
        snapshots := ⟨updated.runId, some updated, 0⟩ :: world.snapshots }), rfl, ?_, rfl⟩
      simp [Newest, tag, ObjectStore.current]

theorem observedRecord_identity {record updated : RunRecord}
    (h : observedRecord sha256 record observation = .ok (some updated)) :
    record.identity = updated.identity := by
  rcases observedRecord_cases h with ⟨-, rfl⟩ | ⟨state, -, rfl⟩ <;> rfl

variable {binding : FargateBinding} {planRevision : String} {states : List ProviderState}
  {reported : List FargateObservation}

/-- Some ending with confirmed cleanup is among the reports. -/
def Confirmed (binding : FargateBinding) (states : List ProviderState) : Prop :=
  ∃ state ∈ states, ∃ e, ending binding state = some e ∧ e.cleanupState = .confirmed

theorem confirmed_cons {state : ProviderState} : Confirmed binding (state :: states) ↔
    (∃ e, ending binding state = some e ∧ e.cleanupState = .confirmed) ∨
      Confirmed binding states := by
  simp [Confirmed]

/-- Once an execution was seen to end, the stage of the record is not looked at. -/
theorem regular_stage {stage other : Option String} {l : Ending} :
    Regular binding createdAt stage (some l) states ↔
      Regular binding createdAt other (some l) states := by
  induction states generalizing l with
  | nil => exact Iff.rfl
  | cons state rest ih =>
    unfold Regular
    cases ending binding state with
    | none => exact ih
    | some e => simp only [ih (l := e)]

theorem feed_cons {next : StoredRun × World} {rest : List BackendObservation}
    (h : poll sha256 registry handle current observation = .ok next) :
    feed sha256 registry handle current (observation :: rest) =
      feed sha256 registry handle next rest := by
  unfold feed
  rw [List.foldlM_cons, h]
  rfl

/-- A regular sequence of reports is accepted, and settles the run if it confirms the cleanup. -/
theorem feed_of_regular
    (hmirrors : Mirrors sha256 registry handle plan createdAt last current.1.record)
    (hneeds : runNeedsReconciliation current.1.record = true) (hnewest : Newest current)
    (hreported : states.mapM (observe (some binding) planRevision handle) = .ok reported)
    (hregular : Regular binding createdAt current.1.record.stage last states) :
    ∃ final, feed sha256 registry handle current (reported.map (·.observation)) = .ok final ∧
      (Confirmed binding states → runNeedsReconciliation final.1.record = false) := by
  induction states generalizing current last reported with
  | nil =>
    cases hreported
    refine ⟨current, rfl, ?_⟩
    rintro ⟨state, hmem, -⟩
    cases hmem
  | cons state rest ih =>
    rw [List.mapM_cons] at hreported
    obtain ⟨first, hfirst, hreported⟩ := Execution.bind_eq_ok hreported
    obtain ⟨others, hothers, hreported⟩ := Execution.bind_eq_ok hreported
    cases hreported
    rw [List.map_cons]
    unfold Regular at hregular
    rcases observe_eq_ok hfirst with ⟨hending, hobservation⟩ |
      ⟨e, stage, hending, he, hstage, hobservation⟩
    · rw [hobservation]
      simp only [hending] at hregular
      simp only [confirmed_cons, hending, reduceCtorEq, false_and, exists_false, false_or]
      cases last with
      | none =>
        obtain ⟨hallowed, hrest⟩ := hregular
        obtain ⟨updated, hobserved, hnext, hstage⟩ := observed_running hmirrors hallowed
        obtain ⟨next, hpoll, hnewest', hrecord⟩ := poll_observed hmirrors hneeds hnewest hobserved
          (by rintro other rfl; exact observedRecord_identity hobserved)
        rw [feed_cons hpoll]
        rw [← hrecord] at hnext hstage
        exact ih hnext (hnext.needs.mpr (by simp)) hnewest' hothers (by rw [hstage]; exact hrest)
      | some l =>
        have hobserved : observedRecord sha256 current.1.record (runningObservation state.now) =
            .ok none := observed_over (hmirrors.progress : Ended l current.1.record)
        obtain ⟨next, hpoll, hnewest', hrecord⟩ := poll_observed hmirrors hneeds hnewest hobserved
          (by simp)
        have hsame : next.1.record = current.1.record := hrecord
        rw [feed_cons hpoll]
        rw [← hsame] at hmirrors hneeds
        exact ih hmirrors hneeds hnewest' hothers (regular_stage.mp hregular)
    · rw [hobservation]
      simp only [hending] at hregular
      obtain ⟨htime, hcontinues, hrest⟩ := hregular
      obtain ⟨updated, hobserved, hnext⟩ := observed_ending hmirrors he hstage htime hcontinues
      obtain ⟨next, hpoll, hnewest', hrecord⟩ := poll_observed hmirrors hneeds hnewest hobserved
        (by rintro other hother; cases hother; exact observedRecord_identity hobserved)
      have hsame : next.1.record = updated := hrecord
      rw [feed_cons hpoll]
      rw [← hsame] at hnext
      by_cases hconfirmed : e.cleanupState = .confirmed
      · have hsettled : runNeedsReconciliation next.1.record = false := by
          rw [← Bool.not_eq_true, hnext.needs]
          simp [hconfirmed]
        exact ⟨next, feed_settled hsettled _, fun _ => hsettled⟩
      · obtain ⟨final, hfeed, hsettles⟩ := ih hnext (hnext.needs.mpr (by simpa using hconfirmed))
          hnewest' hothers (regular_stage.mp (hrest.resolve_left hconfirmed))
        refine ⟨final, hfeed, ?_⟩
        intro hseen
        refine hsettles ((confirmed_cons.mp hseen).resolve_left ?_)
        rintro ⟨other, hother, hothers⟩
        rw [hending] at hother
        cases hother
        exact hconfirmed hothers

theorem feed_rejected {rest : List BackendObservation} {e : LifecycleError}
    (h : poll sha256 registry handle current observation = .error e) :
    feed sha256 registry handle current (observation :: rest) = .error e := by
  unfold feed
  rw [List.foldlM_cons, h]
  rfl

/-- Any other sequence of reports is rejected at the first that goes back. -/
theorem feed_of_irregular
    (hmirrors : Mirrors sha256 registry handle plan createdAt last current.1.record)
    (hneeds : runNeedsReconciliation current.1.record = true) (hnewest : Newest current)
    (hreported : states.mapM (observe (some binding) planRevision handle) = .ok reported)
    (hirregular : ¬ Regular binding createdAt current.1.record.stage last states) :
    ∃ e, feed sha256 registry handle current (reported.map (·.observation)) =
      .error (.contract e) := by
  induction states generalizing current last reported with
  | nil => exact absurd trivial hirregular
  | cons state rest ih =>
    rw [List.mapM_cons] at hreported
    obtain ⟨first, hfirst, hreported⟩ := Execution.bind_eq_ok hreported
    obtain ⟨others, hothers, hreported⟩ := Execution.bind_eq_ok hreported
    cases hreported
    rw [List.map_cons]
    unfold Regular at hirregular
    rcases observe_eq_ok hfirst with ⟨hending, hobservation⟩ |
      ⟨e, stage, hending, he, hstage, hobservation⟩
    · rw [hobservation]
      simp only [hending] at hirregular
      cases last with
      | none =>
        by_cases hallowed : current.1.record.stage = some "running" ∨ createdAt ≤ state.now
        · obtain ⟨updated, hobserved, hnext, hstage⟩ := observed_running hmirrors hallowed
          obtain ⟨next, hpoll, hnewest', hrecord⟩ := poll_observed hmirrors hneeds hnewest
            hobserved (by rintro other rfl; exact observedRecord_identity hobserved)
          rw [feed_cons hpoll]
          rw [← hrecord] at hnext hstage
          refine ih hnext (hnext.needs.mpr (by simp)) hnewest' hothers ?_
          rw [hstage]
          exact fun hrest => hirregular ⟨hallowed, hrest⟩
        · obtain ⟨e, hrejected⟩ := observed_running_rejected hmirrors hallowed
          exact ⟨e, feed_rejected (poll_rejected hmirrors hneeds hrejected)⟩
      | some l =>
        have hobserved : observedRecord sha256 current.1.record (runningObservation state.now) =
            .ok none := observed_over (hmirrors.progress : Ended l current.1.record)
        obtain ⟨next, hpoll, hnewest', hrecord⟩ := poll_observed hmirrors hneeds hnewest hobserved
          (by simp)
        have hsame : next.1.record = current.1.record := hrecord
        rw [feed_cons hpoll]
        rw [← hsame] at hmirrors hneeds
        exact ih hmirrors hneeds hnewest' hothers (fun hrest => hirregular (regular_stage.mp hrest))
    · rw [hobservation]
      simp only [hending] at hirregular
      by_cases hallowed : createdAt ≤ state.now ∧ ∀ l ∈ last, e.Continues l
      · obtain ⟨htime, hcontinues⟩ := hallowed
        obtain ⟨updated, hobserved, hnext⟩ :=
          observed_ending hmirrors he hstage htime hcontinues
        obtain ⟨next, hpoll, hnewest', hrecord⟩ := poll_observed hmirrors hneeds hnewest hobserved
          (by rintro other hother; cases hother; exact observedRecord_identity hobserved)
        have hsame : next.1.record = updated := hrecord
        rw [feed_cons hpoll]
        rw [← hsame] at hnext
        have hpending : e.cleanupState ≠ .confirmed := fun hconfirmed =>
          hirregular ⟨htime, hcontinues, .inl hconfirmed⟩
        refine ih hnext (hnext.needs.mpr (by simpa using hpending)) hnewest' hothers ?_
        exact fun hrest => hirregular ⟨htime, hcontinues, .inr (regular_stage.mp hrest)⟩
      · obtain ⟨error, hrejected⟩ := observed_ending_rejected hmirrors he hstage hallowed
        exact ⟨error, feed_rejected (poll_rejected hmirrors hneeds hrejected)⟩

/-- The reports of a Fargate execution are all accepted exactly if they are regular, and regular
reports that confirm the cleanup settle the run. -/
theorem observations_accepted_iff
    (hvalid : validateRunRecord sha256 current.1.record = .ok ())
    (hstate : current.1.record.runState = .running ∨ current.1.record.runState = .canceling)
    (hhandle : current.1.record.backendHandle = some handle)
    (hselected : registry.select current.1.record = .ok plan) (hnewest : Newest current)
    (hreported : states.mapM (observe (some binding) plan.revision handle) = .ok reported) :
    ((∀ e, feed sha256 registry handle current (reported.map (·.observation)) ≠
        .error (.contract e)) ↔
      Regular binding current.1.record.createdAt current.1.record.stage none states) ∧
    (Regular binding current.1.record.createdAt current.1.record.stage none states →
      Confirmed binding states →
      ∃ final, feed sha256 registry handle current (reported.map (·.observation)) = .ok final ∧
        runNeedsReconciliation final.1.record = false) := by
  have hmirrors := mirrors_of_valid hvalid hstate hhandle hselected
  have hneeds : runNeedsReconciliation current.1.record = true := hmirrors.needs.mpr (by simp)
  constructor
  · constructor
    · intro haccepted
      by_contra hirregular
      obtain ⟨e, hrejected⟩ := feed_of_irregular hmirrors hneeds hnewest hreported hirregular
      exact haccepted e hrejected
    · intro hregular e
      obtain ⟨final, hfeed, -⟩ := feed_of_regular hmirrors hneeds hnewest hreported hregular
      rw [hfeed]
      simp
  · intro hregular hconfirmed
    obtain ⟨final, hfeed, hsettles⟩ :=
      feed_of_regular hmirrors hneeds hnewest hreported hregular
    exact ⟨final, hfeed, hsettles hconfirmed⟩

end Feeding

section Example

def fargateBinding : FargateBinding := ⟨"eu-west-1", "123456789012", "c"⟩

def taskArn : String :=
  "arn:aws:ecs:eu-west-1:123456789012:task/c/0123456789abcdef0123456789abcdef"

def succeededExecution : Execution where
  executionArn := "x"
  status := "SUCCEEDED"
  input := some ("\x7b\"deployment_revision\":\"" ++ exampleSha256 ++ "\"\x7d")
  output := some ("\x7b\"task_arn\":\"" ++ taskArn ++ "\"\x7d")

/-- The execution succeeded, and describing its task answers this. -/
def succeededState (task : Option (List (String × Json))) : ProviderState where
  execution := some succeededExecution
  history := none
  tasks := fun _ => task
  resultSummary := some ⟨1, 1, 1, 1, 1, 1, 1, 1, 0, 1, 1, 1, 0, 0, 0, 0, 0, 1, 0, false⟩
  now := 2

def describedAs (lastStatus : String) : Option (List (String × Json)) :=
  some [("tasks", .arr [.obj [("taskArn", .str taskArn), ("lastStatus", .str lastStatus)]])]

def fargatePlan : ExecutionPlan where
  planId := "n"
  environment := "e"
  project := "p"
  graph := "g"
  graphRevision := "1"
  graphContentSha256 := exampleSha256
  backendId := "b"
  deadlineSeconds := 60
  maxAttempts := 1
  taskCount := 1
  revision := exampleSha256

def fargateRegistry : Registry := ⟨[fargatePlan], ["b"]⟩

def submittedStored : StoredRun × World :=
  (⟨submittedRun, 0⟩, { World.empty with snapshots := [⟨"run-1", some submittedRun, 0⟩] })

def isField (key text : String) : Option Json → Bool
  | some (.obj [(shown, .str value)]) => shown == key && value == text
  | _ => false

theorem eq_of_isField {key text : String} {document : Option Json}
    (h : isField key text document = true) : document = some (.obj [(key, .str text)]) := by
  unfold isField at h
  split at h
  · simpa using h
  · cases h

theorem isField_documents :
    isField "deployment_revision" exampleSha256 (jsonDocument succeededExecution.input) = true ∧
    isField "task_arn" taskArn (jsonDocument succeededExecution.output) = true := by
  decide +kernel

theorem jsonDocument_input : jsonDocument succeededExecution.input =
    some (.obj [("deployment_revision", .str exampleSha256)]) :=
  eq_of_isField isField_documents.1

theorem jsonDocument_output : jsonDocument succeededExecution.output =
    some (.obj [("task_arn", .str taskArn)]) :=
  eq_of_isField isField_documents.2

theorem namedTask_succeeded (task : Option (List (String × Json))) :
    namedTask (succeededState task) succeededExecution .succeeded = some taskArn := by
  have hfound : deepString taskArnKeys recursionLimit
      (.arr [.obj [("task_arn", .str taskArn)], .arr []]) = .ok (some taskArn) := by
    simp [deepString, deepItems, deepMembers, recursionLimit, taskArnKeys]
    rfl
  simp [namedTask, jsonDocument_output, executionHistory, hfound]

theorem ending_succeeded (task : Option (List (String × Json))) :
    ending fargateBinding (succeededState task) =
      some ⟨.succeeded, (succeededState task).resultSummary,
        cleanupState fargateBinding (some taskArn) (succeededState task)⟩ := by
  have hstatus : terminalStatus succeededExecution.status = some .succeeded := rfl
  have hexecution : (succeededState task).execution = some succeededExecution := rfl
  simp only [ending, hexecution, Option.bind_eq_bind, Option.bind_some, hstatus,
    namedTask_succeeded]
  rfl

theorem describeExecution_succeeded (task : Option (List (String × Json))) :
    describeExecution ⟨"b", "x"⟩ exampleSha256 (succeededState task) = .ok succeededExecution := by
  have hexecution : (succeededState task).execution = some succeededExecution := rfl
  have harn : ¬ succeededExecution.executionArn ≠ "x" := by decide
  unfold describeExecution
  simp only [hexecution, jsonDocument_input]
  rw [if_neg harn]
  simp only [lookup]
  rfl

theorem observe_succeeded (task : Option (List (String × Json))) :
    observe (some fargateBinding) exampleSha256 ⟨"b", "x"⟩ (succeededState task) =
      .ok ⟨(Ending.mk .succeeded (succeededState task).resultSummary
        (cleanupState fargateBinding (some taskArn) (succeededState task))).observation
          "succeeded" 2, none⟩ := by
  have hstatus : terminalStatus succeededExecution.status = some .succeeded := rfl
  have hrunning : ¬ succeededExecution.status = "RUNNING" := by decide
  have hfound : deepString taskArnKeys recursionLimit
      (.arr [.obj [("task_arn", .str taskArn)], .arr []]) = .ok (some taskArn) := by
    simp [deepString, deepItems, deepMembers, recursionLimit, taskArnKeys]
    rfl
  have hterminal : observeTerminal fargateBinding (succeededState task) succeededExecution
      .succeeded = .ok ⟨(Ending.mk .succeeded (succeededState task).resultSummary
        (cleanupState fargateBinding (some taskArn) (succeededState task))).observation
          "succeeded" 2, none⟩ := by
    simp only [observeTerminal, jsonDocument_output, executionHistory, Option.getD_some,
      if_true, hfound]
    rfl
  unfold observe
  dsimp only
  rw [describeExecution_succeeded]
  show (if succeededExecution.status = "RUNNING" then Except.ok ⟨runningObservation 2, none⟩
    else observeTerminal fargateBinding (succeededState task) succeededExecution .succeeded) = _
  rw [if_neg hrunning, hterminal]

theorem reported_succeeded (first second : Option (List (String × Json))) :
    [succeededState first, succeededState second].mapM
        (observe (some fargateBinding) exampleSha256 ⟨"b", "x"⟩) =
      .ok ([first, second].map fun task =>
        ⟨(Ending.mk .succeeded (succeededState task).resultSummary
          (cleanupState fargateBinding (some taskArn) (succeededState task))).observation
            "succeeded" 2, none⟩) := by
  simp only [List.mapM_cons, List.mapM_nil, observe_succeeded]
  rfl

theorem submittedStored_valid :
    validateRunRecord attemptDigest submittedStored.1.record = .ok () := by
  rfl

theorem submittedStored_selected :
    fargateRegistry.select submittedStored.1.record = .ok fargatePlan := by
  rfl

theorem submittedStored_newest : Newest submittedStored := by
  rfl

theorem cleanup_states :
    cleanupState fargateBinding (some taskArn) (succeededState none) = .uncertain ∧
    cleanupState fargateBinding (some taskArn)
      (succeededState (describedAs "DEPROVISIONING")) = .pending ∧
    cleanupState fargateBinding (some taskArn)
      (succeededState (describedAs "STOPPED")) = .confirmed := by
  decide +kernel

/-- A task that could not be described at one poll was draining at the next. -/
theorem uncertain_cleanup_regresses :
    validateRunRecord attemptDigest submittedStored.1.record = .ok () ∧
    submittedStored.1.record.runState = .running ∧
    submittedStored.1.record.backendHandle = some ⟨"b", "x"⟩ ∧
    fargateRegistry.select submittedStored.1.record = .ok fargatePlan ∧
    Newest submittedStored ∧
    ∃ reported, [succeededState none, succeededState (describedAs "DEPROVISIONING")].mapM
        (observe (some fargateBinding) fargatePlan.revision ⟨"b", "x"⟩) = .ok reported ∧
      feed attemptDigest fargateRegistry ⟨"b", "x"⟩ submittedStored
          (reported.map (·.observation)) =
        .error (.contract (.runTransition "run cleanup state cannot regress")) := by
  refine ⟨submittedStored_valid, rfl, rfl, submittedStored_selected, submittedStored_newest, _,
    reported_succeeded none (describedAs "DEPROVISIONING"), ?_⟩
  simp only [List.map_cons, List.map_nil, cleanup_states.1, cleanup_states.2.1]
  rfl

theorem regular_stopped : Regular fargateBinding 0 (some "submitted") none
    [succeededState none, succeededState (describedAs "STOPPED")] := by
  have hcontinues : (Ending.mk .succeeded (succeededState none).resultSummary
      .confirmed).Continues ⟨.succeeded, (succeededState none).resultSummary, .uncertain⟩ :=
    ⟨rfl, rfl, by decide⟩
  have hfirst : (0 : ℤ) ≤ (succeededState none).now := by decide
  have hsecond : (0 : ℤ) ≤ (succeededState (describedAs "STOPPED")).now := by decide
  simp only [Regular, ending_succeeded, cleanup_states.1, cleanup_states.2.2]
  refine ⟨hfirst, by simp, .inr ⟨hsecond, ?_, .inl trivial⟩⟩
  intro l hl
  cases hl
  exact hcontinues

/-- A task that could not be described at one poll had stopped at the next. -/
theorem observations_accepted_iff_stopped :
    ∃ reported, [succeededState none, succeededState (describedAs "STOPPED")].mapM
        (observe (some fargateBinding) fargatePlan.revision ⟨"b", "x"⟩) = .ok reported ∧
      ∃ final, feed attemptDigest fargateRegistry ⟨"b", "x"⟩ submittedStored
          (reported.map (·.observation)) = .ok final ∧
        runNeedsReconciliation final.1.record = false := by
  have hreported := reported_succeeded none (describedAs "STOPPED")
  have hconfirmed : Confirmed fargateBinding
      [succeededState none, succeededState (describedAs "STOPPED")] := by
    refine ⟨succeededState (describedAs "STOPPED"), by simp, _, ending_succeeded _, ?_⟩
    exact cleanup_states.2.2
  have hnewest := submittedStored_newest
  exact ⟨_, hreported, (observations_accepted_iff submittedStored_valid (.inl rfl) rfl
    submittedStored_selected hnewest hreported).2 regular_stopped hconfirmed⟩

end Example

end Dander.Fargate
