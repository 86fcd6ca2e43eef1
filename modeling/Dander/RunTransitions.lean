import Dander.Execution
import Dander.Orchestration
import Mathlib.Data.List.Chain

/-!
# Sequences of run transitions

Every copy of a run record goes through the record's constructor. Along any sequence of
successful transitions the reconciliation dimensions of a run only move forward, what was
established stays, and the run keeps the identity of its submission.
-/
namespace Dander.Orchestration

section Construction

def requirePortableId (value label : String) : Except ContractError Unit :=
  if isPortableId value then .ok ()
  else .error (.orchestrationContract (label ++ " identifier is malformed"))

def requireOpaqueId (value label : String) : Except ContractError Unit :=
  if isOpaqueId value then .ok ()
  else .error (.orchestrationContract (label ++ " identifier is malformed"))

def requireSha256 (value label : String) : Except ContractError Unit :=
  if isSha256 value then .ok ()
  else .error (.orchestrationContract (label ++ " identity must be a lowercase SHA-256"))

variable (sha256 : String → String)

/-- Every check of the record's constructor, in its order. -/
def RunRecord.postInit (record : RunRecord) : Except ContractError Unit := do
  requireOpaqueId record.runId "run"
  requirePortableId record.environment "environment"
  requirePortableId record.project "project"
  requirePortableId record.graph "graph"
  requirePortableId record.planId "plan"
  requireSha256 record.graphContentSha256 "graph content"
  requireSha256 record.planRevision "plan revision"
  requireSha256 record.idempotencyKeySha256 "idempotency key"
  requireSha256 record.submissionSha256 "submission"
  if record.graphRevision = "" || decide (512 < record.graphRevision.toList.length) then
    throw (.orchestrationContract "run graph revision is missing or oversized")
  if record.updatedAt < record.createdAt then
    throw (.orchestrationContract "run update time predates creation")
  if record.requestedDeadlineSeconds.any (fun seconds => seconds < 1) then
    throw (.orchestrationContract "run requested deadline must be a positive integer")
  if (record.attemptCount == 0) != record.currentAttemptId.isNone then
    throw (.orchestrationContract "run attempt identity does not match its count")
  if record.currentAttemptId.isSome then
    let expected ← attemptIdentity sha256 record.runId record.attemptCount
    if record.currentAttemptId ≠ some expected then
      throw (.orchestrationContract "run current attempt identity is not deterministic")
  if record.backendHandle.any (fun handle => handle.backendId = "") then
    throw (.orchestrationContract "run backend handle is malformed")
  if record.stage.any (fun stage => !isSummary stage) then
    throw (.orchestrationContract "stage is malformed")
  if record.resultSummary.isSome && (record.runState ≠ .terminal ||
      record.outcome ≠ .succeeded || record.resultsState ≠ .available) then
    throw (.orchestrationContract
      "execution-result summaries require available successful terminal results")
  if record.placementDecision.any (fun decision =>
      decision.selectedEnvironment ≠ record.environment) then
    throw (.orchestrationContract "run placement decision selects a different environment")
  validateRunDimensions record

/-- A transition, with the whole constructor run on the new record. -/
def transitionRunRecord (record : RunRecord) (runState : HostedRunState) (now : ℤ)
    (changes : RunChanges) : Except ContractError RunRecord := do
  let updated ← transitionRun sha256 record runState now changes
  updated.postInit sha256
  return updated

/-- One successful transition, with any arguments. -/
def Transition (record updated : RunRecord) : Prop :=
  ∃ runState now changes, transitionRunRecord sha256 record runState now changes = .ok updated

end Construction

section Advancing

/-- Running and retrying take turns. -/
def HostedRunState.rank : HostedRunState → ℕ
  | .queued => 0
  | .running => 1
  | .retrying => 1
  | .canceling => 2
  | .terminal => 3

def CleanupState.rank : CleanupState → ℕ
  | .pending => 0
  | .uncertain => 1
  | .confirmed => 2

/-- A later record of the same run. -/
structure Advances (first last : RunRecord) : Prop where
  runState : first.runState.rank ≤ last.runState.rank
  outcome : first.outcome ≠ .unknown → last.outcome = first.outcome
  resultsState : first.resultsState ≠ .pending → last.resultsState = first.resultsState
  cleanupState : first.cleanupState.rank ≤ last.cleanupState.rank
  resultSummary : ∀ summary, first.resultSummary = some summary →
    last.resultSummary = some summary
  terminalAt : ∀ instant, first.terminalAt = some instant → last.terminalAt = some instant
  identity : sameRunIdentity first last = true

theorem Advances.trans {a b c : RunRecord} (hab : Advances a b) (hbc : Advances b c) :
    Advances a c := by
  refine ⟨hab.runState.trans hbc.runState, ?_, ?_, hab.cleanupState.trans hbc.cleanupState, ?_,
    ?_, ?_⟩
  · intro hknown
    have hb := hab.outcome hknown
    rw [hbc.outcome (by rw [hb]; exact hknown), hb]
  · intro hknown
    have hb := hab.resultsState hknown
    rw [hbc.resultsState (by rw [hb]; exact hknown), hb]
  · intro summary hsummary
    exact hbc.resultSummary summary (hab.resultSummary summary hsummary)
  · intro instant hinstant
    exact hbc.terminalAt instant (hab.terminalAt instant hinstant)
  · have hfirst := sameRunIdentity_iff.mp hab.identity
    have hlast := sameRunIdentity_iff.mp hbc.identity
    exact sameRunIdentity_iff.mpr (hfirst.trans hlast)

variable {sha256 : String → String} {record updated : RunRecord}

theorem rank_le_of_allowed {first last : HostedRunState} (h : last ∈ allowedStates first) :
    first.rank ≤ last.rank := by
  revert h
  cases first <;> cases last <;> decide

theorem cleanupRank_le_of_allowed {first last : CleanupState} (h : last ∈ allowedCleanup first) :
    first.rank ≤ last.rank := by
  revert h
  cases first <;> cases last <;> decide

/-- What a transition checks. -/
structure Permitted (sha256 : String → String) (record : RunRecord) (next : HostedRunState)
    (now : ℤ) (changes : RunChanges) : Prop where
  runState : next ∈ allowedStates record.runState
  outcome : record.outcome ≠ .unknown →
    (record.changed next now changes).outcome = record.outcome
  resultsState : record.resultsState ≠ .pending →
    (record.changed next now changes).resultsState = record.resultsState
  cleanupState : (record.changed next now changes).cleanupState ∈
    allowedCleanup record.cleanupState
  resultSummary : record.resultSummary.isSome →
    (record.changed next now changes).resultSummary = record.resultSummary
  available : (record.changed next now changes).resultsState = .available →
    (record.changed next now changes).resultSummary.isSome
  valid : validateRunRecord sha256 (record.changed next now changes) = .ok ()

theorem transitionRun_eq_ok_iff {runState : HostedRunState} {now : ℤ} {changes : RunChanges} :
    transitionRun sha256 record runState now changes = .ok updated ↔
      Permitted sha256 record runState now changes ∧
        updated = record.changed runState now changes := by
  constructor
  · intro h
    unfold transitionRun at h
    obtain ⟨hstate, h⟩ := Execution.guard_eq_ok h
    obtain ⟨houtcome, h⟩ := Execution.guard_eq_ok h
    obtain ⟨hresults, h⟩ := Execution.guard_eq_ok h
    obtain ⟨hcleanup, h⟩ := Execution.guard_eq_ok h
    obtain ⟨hsummary, h⟩ := Execution.guard_eq_ok h
    obtain ⟨havailable, h⟩ := Execution.guard_eq_ok h
    obtain ⟨⟨⟩, hvalid, h⟩ := Execution.bind_eq_ok h
    cases h
    simp only [Bool.and_eq_true, decide_eq_true_eq, not_and, not_not, ne_eq] at houtcome hresults
    refine ⟨⟨not_not.mp hstate, houtcome, hresults, not_not.mp hcleanup, ?_, ?_, hvalid⟩, rfl⟩
    · simpa using hsummary
    · simpa [Option.isSome_iff_ne_none] using havailable
  · rintro ⟨h, rfl⟩
    have hsummary := h.resultSummary
    have havailable := h.available
    unfold transitionRun
    rw [if_neg (not_not.mpr h.runState), if_neg (by simpa using h.outcome),
      if_neg (by simpa using h.resultsState), if_neg (not_not.mpr h.cleanupState),
      if_neg (by simpa using hsummary),
      if_neg (by simpa [Option.isSome_iff_ne_none] using havailable), h.valid]
    rfl

/-- What the checks of a transition establish. -/
theorem Transition.advances (h : Transition sha256 record updated) : Advances record updated := by
  obtain ⟨runState, now, changes, h⟩ := h
  obtain ⟨next, h, hrest⟩ := Execution.bind_eq_ok h
  obtain ⟨⟨⟩, -, hreturn⟩ := Execution.bind_eq_ok hrest
  cases hreturn
  obtain ⟨hpermitted, rfl⟩ := transitionRun_eq_ok_iff.mp h
  refine ⟨rank_le_of_allowed hpermitted.runState, hpermitted.outcome, hpermitted.resultsState,
    cleanupRank_le_of_allowed hpermitted.cleanupState, ?_, ?_, ?_⟩
  · intro summary hset
    exact (hpermitted.resultSummary (by rw [hset]; rfl)).trans hset
  · intro instant hset
    simp [RunRecord.changed, hset]
  · exact sameRunIdentity_iff.mpr rfl

theorem Transition.postInit (h : Transition sha256 record updated) :
    updated.postInit sha256 = .ok () := by
  obtain ⟨runState, now, changes, h⟩ := h
  obtain ⟨next, -, hrest⟩ := Execution.bind_eq_ok h
  obtain ⟨⟨⟩, hvalid, hreturn⟩ := Execution.bind_eq_ok hrest
  cases hreturn
  exact hvalid

/-- Along any finite sequence of successful transitions from a valid record, every record is
valid and every later record advances every earlier one. -/
theorem transitions_advance {records : List RunRecord}
    (hvalid : record.postInit sha256 = .ok ())
    (hchain : List.IsChain (Transition sha256) (record :: records)) :
    (record :: records).Pairwise Advances ∧
      ∀ member ∈ record :: records, member.postInit sha256 = .ok () := by
  constructor
  · have hadvancing : List.IsChain Advances (record :: records) :=
      hchain.imp fun _ _ h => h.advances
    have htrans : IsTrans RunRecord Advances := ⟨fun _ _ _ => Advances.trans⟩
    exact List.isChain_iff_pairwise.mp hadvancing
  · intro member hmember
    induction records generalizing record with
    | nil =>
      obtain rfl := List.mem_singleton.mp hmember
      exact hvalid
    | cons next rest ih =>
      obtain ⟨hstep, hrest⟩ := List.isChain_cons_cons.mp hchain
      rcases List.mem_cons.mp hmember with rfl | hlater
      · exact hvalid
      · exact ih hstep.postInit hrest hlater

end Advancing

section Example

def exampleSha256 : String :=
  "a2d003afd28962f68280799207d8fe0d31ef08931a893d7d9965659c06a70d3f"

def attemptDigest (_ : String) : String := exampleSha256

def queuedRun : RunRecord where
  runId := "run-1"
  environment := "e"
  project := "p"
  graph := "g"
  graphRevision := "1"
  graphContentSha256 := exampleSha256
  planId := "n"
  planRevision := exampleSha256
  trigger := ⟨.schedule, "t", some 0, none, none⟩
  idempotencyKeySha256 := exampleSha256
  submissionSha256 := exampleSha256
  requestedAt := 0
  requestedDeadlineSeconds := none
  runState := .queued
  outcome := .unknown
  resultsState := .pending
  cleanupState := .pending
  createdAt := 0
  updatedAt := 0
  terminalAt := none
  stage := none
  attemptCount := 0
  currentAttemptId := none
  backendHandle := none
  resultSummary := none
  placementDecision := none
  sizeClassDecision := none

def submission : RunChanges where
  stage := some "submitted"
  attemptCount := some 1
  currentAttemptId := some "attempt-1-a2d003afd28962f68280"
  backendHandle := some ⟨"b", "x"⟩

def cancellation : RunChanges where
  outcome := some .canceled
  resultsState := some .unavailable
  cleanupState := some .uncertain

def cleanup : RunChanges where
  cleanupState := some .confirmed

def submittedRun : RunRecord := queuedRun.changed .running 1 submission

def canceledRun : RunRecord := submittedRun.changed .terminal 2 cancellation

def cleanedRun : RunRecord := canceledRun.changed .terminal 3 cleanup

theorem isSha256_exampleSha256 : isSha256 exampleSha256 = true := by decide +kernel

theorem transition_of_checks {record updated : RunRecord} {runState : HostedRunState} {now : ℤ}
    {changes : RunChanges}
    (htransition : transitionRun attemptDigest record runState now changes = .ok updated)
    (hvalid : updated.postInit attemptDigest = .ok ()) :
    Transition attemptDigest record updated := by
  refine ⟨runState, now, changes, ?_⟩
  simp [transitionRunRecord, htransition, hvalid, bind, Except.bind, pure, Except.pure]

theorem queuedRun_postInit : queuedRun.postInit attemptDigest = .ok () := by
  simp only [RunRecord.postInit, requireSha256, queuedRun, isSha256_exampleSha256, if_true]
  rfl

theorem submittedRun_postInit : submittedRun.postInit attemptDigest = .ok () := by
  simp only [RunRecord.postInit, requireSha256, submittedRun, RunRecord.changed, queuedRun,
    isSha256_exampleSha256, if_true]
  rfl

theorem canceledRun_postInit : canceledRun.postInit attemptDigest = .ok () := by
  simp only [RunRecord.postInit, requireSha256, canceledRun, submittedRun, RunRecord.changed,
    queuedRun, isSha256_exampleSha256, if_true]
  rfl

theorem cleanedRun_postInit : cleanedRun.postInit attemptDigest = .ok () := by
  simp only [RunRecord.postInit, requireSha256, cleanedRun, canceledRun, submittedRun,
    RunRecord.changed, queuedRun, isSha256_exampleSha256, if_true]
  rfl

/-- A run is dispatched, canceled, and cleaned up. -/
theorem transitions_advance_canceled :
    queuedRun.postInit attemptDigest = .ok () ∧
    List.IsChain (Transition attemptDigest) [queuedRun, submittedRun, canceledRun, cleanedRun] ∧
    Advances queuedRun cleanedRun := by
  have hsubmitted :
      transitionRun attemptDigest queuedRun .running 1 submission = .ok submittedRun := by rfl
  have hcanceled :
      transitionRun attemptDigest submittedRun .terminal 2 cancellation = .ok canceledRun := by
    rfl
  have hcleaned :
      transitionRun attemptDigest canceledRun .terminal 3 cleanup = .ok cleanedRun := by rfl
  have hchain : List.IsChain (Transition attemptDigest)
      [queuedRun, submittedRun, canceledRun, cleanedRun] := by
    have hsubmission := transition_of_checks hsubmitted submittedRun_postInit
    have hcancellation := transition_of_checks hcanceled canceledRun_postInit
    have hcleanup := transition_of_checks hcleaned cleanedRun_postInit
    exact .cons_cons hsubmission (.cons_cons hcancellation (.cons_cons hcleanup (.singleton _)))
  have hadvances := (transitions_advance queuedRun_postInit hchain).1
  exact ⟨queuedRun_postInit, hchain, List.rel_of_pairwise_cons hadvances (by simp)⟩

end Example

end Dander.Orchestration
