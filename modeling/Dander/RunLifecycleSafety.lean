import Dander.Execution
import Dander.RunLifecycle

/-!
# Cancelled runs and accepted executions

A run whose stored snapshot says that it was cancelled and cleaned up must not have an
execution that nobody has seen end. Dispatching submits before it saves, so this rests on
the order of submissions and of cancellations of queued runs.
-/
namespace Dander.Lifecycle

open Interleaving ObjectStore Orchestration

section Property

/-- No cancelled and cleaned-up snapshot belongs to an execution not seen to have ended. -/
def NoOrphans (w : World) : Prop :=
  ∀ runId version, current w.snapshots runId = some version →
    version.value.runState = .terminal → version.value.outcome = .canceled →
    version.value.cleanupState = .confirmed →
    ∀ e ∈ w.executions, e.runId = runId → e.handle ∈ w.ended

/-- A queued snapshot is cancelled only while the backend has accepted nothing for its run,
and nothing is submitted for a run that was cancelled while queued. -/
def Orderly : Request → World → Prop
  | .save stored record, w =>
    tag w.snapshots record.runId = some stored.revision → stored.record.runState = .queued →
      record.runState = .terminal → ∀ e ∈ w.executions, e.runId ≠ record.runId
  | .submitOrAdopt _ runId _ _, w =>
    ∀ version ∈ current w.snapshots runId,
      version.value.runState = .terminal → version.value.attemptCount ≠ 0
  | _, _ => True

end Property

section Transitions

variable {sha256 : String → String}

theorem transitionRun_eq_ok {record updated : RunRecord} {state : HostedRunState} {now : ℤ}
    {changes : RunChanges} (h : transitionRun sha256 record state now changes = .ok updated) :
    updated = record.changed state now changes := by
  unfold transitionRun at h
  obtain ⟨-, h⟩ := Execution.guard_eq_ok h
  obtain ⟨-, h⟩ := Execution.guard_eq_ok h
  obtain ⟨-, h⟩ := Execution.guard_eq_ok h
  obtain ⟨-, h⟩ := Execution.guard_eq_ok h
  obtain ⟨-, h⟩ := Execution.guard_eq_ok h
  obtain ⟨-, h⟩ := Execution.guard_eq_ok h
  obtain ⟨-, -, h⟩ := Execution.bind_eq_ok h
  cases h
  rfl

/-- A reconciler ends a run or keeps it running or canceling, and changes no attempt. -/
theorem observedRecord_cases {record updated : RunRecord} {observation : BackendObservation}
    (h : observedRecord sha256 record observation = .ok (some updated)) :
    (observation.executionState = .terminal ∧
        updated = record.changed .terminal observation.observedAt
          { outcome := some observation.outcome, resultsState := some observation.resultsState,
            cleanupState := some observation.cleanupState, stage := observation.stage,
            resultSummary := observation.resultSummary }) ∨
      ∃ state, (state = .running ∨ state = .canceling) ∧
        updated = record.changed state observation.observedAt { stage := observation.stage } := by
  unfold observedRecord at h
  split at h
  next hterminal =>
    obtain ⟨next, hnext, h⟩ := Execution.bind_eq_ok h
    cases h
    exact .inl ⟨hterminal, transitionRun_eq_ok hnext⟩
  · split at h
    · cases h
    · have hstate : ∀ state,
          (if record.runState = .canceling then HostedRunState.canceling else .running) = state →
          state = .running ∨ state = .canceling := by
        rintro state rfl
        split <;> simp
      generalize (if record.runState = .canceling then HostedRunState.canceling else .running)
        = state at h hstate
      dsimp only at h
      split at h
      · cases h
      · obtain ⟨next, hnext, h⟩ := Execution.bind_eq_ok h
        cases h
        exact .inr ⟨state, hstate state rfl, transitionRun_eq_ok hnext⟩

end Transitions

section Effects

variable {w w' : World}

/-- A claim writes the first snapshot of its run, finds the current one, or is refused. -/
theorem World.claimed_cases (w : World) (record : RunRecord) :
    (current w.snapshots record.runId = none ∧
        w.claimed record = (.ok ⟨⟨record, w.snapshots.length⟩, true⟩,
          { w with snapshots := ⟨record.runId, some record, 0⟩ :: w.snapshots })) ∨
      (∃ version, current w.snapshots record.runId = some version ∧
        version.value.submissionSha256 = record.submissionSha256 ∧
        w.claimed record = (.ok ⟨⟨version.value, version.etag⟩, false⟩, w)) ∨
      ∃ e, w.claimed record = (.error e, w) := by
  unfold World.claimed
  split
  next hnone => exact .inl ⟨hnone, rfl⟩
  next version hcurrent =>
    split
    · exact .inr (.inr ⟨_, rfl⟩)
    · split
      · exact .inr (.inr ⟨_, rfl⟩)
      next hsubmission => exact .inr (.inl ⟨version, hcurrent, not_not.mp hsubmission, rfl⟩)

/-- A save writes a snapshot at the revision that it names, or is refused. -/
theorem World.save_cases (w : World) (stored : StoredRun) (record : RunRecord) :
    (sameRunIdentity stored.record record = true ∧
        tag w.snapshots record.runId = some stored.revision ∧
        w.save stored record = (.ok ⟨record, w.snapshots.length⟩,
          { w with snapshots := ⟨record.runId, some record, 0⟩ :: w.snapshots })) ∨
      ∃ e, w.save stored record = (.error e, w) := by
  unfold World.save
  split
  · exact .inr ⟨_, rfl⟩
  next hsame =>
    rw [Bool.not_eq_true', Bool.not_eq_false] at hsame
    split
    next htag => exact .inl ⟨hsame, htag, rfl⟩
    · exact .inr ⟨_, rfl⟩

/-- A request adds at most one snapshot: the first of a run, or one at the revision it names. -/
theorem serve_snapshots (oracle : Oracle) (o : Request) (w : World) :
    (serve oracle o w).2.snapshots = w.snapshots ∨
      ∃ record, (serve oracle o w).2.snapshots = ⟨record.runId, some record, 0⟩ :: w.snapshots ∧
        ((o = .claim record ∧ current w.snapshots record.runId = none) ∨
          ∃ stored, o = .save stored record ∧ sameRunIdentity stored.record record = true ∧
            tag w.snapshots record.runId = some stored.revision) := by
  cases o with
  | claim record =>
    show (w.claimed record).2.snapshots = _ ∨ _
    rcases w.claimed_cases record with ⟨hnone, heq⟩ | ⟨version, -, -, heq⟩ | ⟨e, heq⟩
    · exact .inr ⟨record, congrArg (fun result => result.2.snapshots) heq, .inl ⟨rfl, hnone⟩⟩
    · exact .inl (by rw [heq])
    · exact .inl (by rw [heq])
  | save stored record =>
    show (w.save stored record).2.snapshots = _ ∨ _
    rcases w.save_cases stored record with ⟨hsame, htag, heq⟩ | ⟨e, heq⟩
    · exact .inr ⟨record, congrArg (fun result => result.2.snapshots) heq,
        .inr ⟨stored, rfl, hsame, htag⟩⟩
    · exact .inl (by rw [heq])
  | get runId => exact .inl rfl
  | appendAttempt attempt =>
    simp only [serve, World.appendAttempt]
    split
    · exact .inl rfl
    · split <;> exact .inl rfl
  | submitOrAdopt plan runId attemptId trigger =>
    simp only [serve, World.submitOrAdopt]
    split <;> exact .inl rfl
  | observe plan handle =>
    simp only [serve, World.observe]
    split <;> exact .inl rfl
  | cancel plan handle => exact .inl rfl
  | clock => exact .inl rfl

theorem serve_suffix (oracle : Oracle) (o : Request) (w : World) :
    w.snapshots <:+ (serve oracle o w).2.snapshots := by
  rcases serve_snapshots oracle o w with hsame | ⟨record, hadded, _⟩
  · rw [hsame]
  · rw [hadded]
    exact List.suffix_cons _ _

/-- A claim answers with a snapshot of the history. -/
theorem recorded_of_claimed {record : RunRecord} {claim : RunClaim}
    (h : w.claimed record = (.ok claim, w')) :
    (∃ author, recorded w'.snapshots claim.stored.revision =
      some ⟨record.runId, some claim.stored.record, author⟩) ∧
      claim.stored.record.submissionSha256 = record.submissionSha256 := by
  rcases w.claimed_cases record with ⟨-, heq⟩ | ⟨version, hcurrent, hsubmission, heq⟩ | ⟨e, heq⟩
  · obtain ⟨hclaim, rfl⟩ := Prod.mk.inj (heq.symm.trans h)
    obtain rfl := Except.ok.inj hclaim
    exact ⟨⟨0, by simp [recorded]⟩, rfl⟩
  · obtain ⟨hclaim, rfl⟩ := Prod.mk.inj (heq.symm.trans h)
    obtain rfl := Except.ok.inj hclaim
    exact ⟨recorded_of_current hcurrent, hsubmission⟩
  · cases (Prod.mk.inj (heq.symm.trans h)).1

/-- A run without a current snapshot was never written. -/
theorem name_ne_of_current_none {history : History String RunRecord} {name : String}
    (hvalues : ∀ write ∈ history, write.value ≠ none) (h : current history name = none) :
    ∀ write ∈ history, write.name ≠ name := by
  induction history with
  | nil => simp
  | cons last older ih =>
    have hlast := hvalues last List.mem_cons_self
    by_cases hname : last.name = name
    · subst hname
      simp [hlast] at h
    · rw [current_cons_of_ne hname] at h
      simp only [List.mem_cons, forall_eq_or_imp]
      exact ⟨hname, ih (fun write hwrite => hvalues write (List.mem_cons_of_mem _ hwrite)) h⟩

end Effects

section Invariant

/-- A snapshot of a run that was never dispatched. -/
structure Undispatched (record : RunRecord) : Prop where
  attemptCount : record.attemptCount = 0
  handle : record.backendHandle = none
  state : record.runState = .queued ∨ record.runState = .terminal

/-- A snapshot of a dispatched run: its handle is that of an accepted execution, which was
seen to end if the snapshot is terminal. -/
structure Dispatched (w : World) (record : RunRecord) : Prop where
  attemptCount : record.attemptCount ≠ 0
  accepted : ∃ e ∈ w.executions, e.runId = record.runId ∧ record.backendHandle = some e.handle ∧
    (record.runState = .running ∨ record.runState = .canceling ∨
      (record.runState = .terminal ∧ e.handle ∈ w.ended))

def Tracked (w : World) (record : RunRecord) : Prop := Undispatched record ∨ Dispatched w record

structure Consistent (sha256 : String → String) (w : World) : Prop where
  writes : ∀ write ∈ w.snapshots, ∃ record, write.value = some record ∧
    record.runId = write.name ∧ Tracked w record
  attempts : ∀ e ∈ w.executions, attemptIdentity sha256 e.runId 1 = .ok e.attemptId
  unique : ∀ e ∈ w.executions, ∀ f ∈ w.executions, e.runId = f.runId → e = f
  separate : ∀ runId version, current w.snapshots runId = some version →
    version.value.runState = .terminal → version.value.attemptCount = 0 →
    ∀ e ∈ w.executions, e.runId ≠ runId

structure Grows (w later : World) : Prop where
  snapshots : w.snapshots <:+ later.snapshots
  executions : w.executions ⊆ later.executions
  ended : w.ended ⊆ later.ended

theorem Grows.rfl' (w : World) : Grows w w :=
  ⟨List.suffix_refl _, List.Subset.refl _, List.Subset.refl _⟩

theorem Grows.trans {a b c : World} (hab : Grows a b) (hbc : Grows b c) : Grows a c :=
  ⟨hab.snapshots.trans hbc.snapshots, List.Subset.trans hab.executions hbc.executions,
    List.Subset.trans hab.ended hbc.ended⟩

def discipline (sha256 : String → String) : Discipline World where
  inv := Consistent sha256
  le := Grows
  refl := Grows.rfl'
  trans _ _ _ := Grows.trans

variable {sha256 : String → String} {w later : World}

theorem Tracked.mono {record : RunRecord} (h : Tracked w record) (hle : Grows w later) :
    Tracked later record := by
  rcases h with h | ⟨hcount, e, hmem, hid, hhandle, hstate⟩
  · exact .inl h
  · refine .inr ⟨hcount, e, hle.executions hmem, hid, hhandle, ?_⟩
    rcases hstate with h | h | ⟨h, hended⟩
    · exact .inl h
    · exact .inr (.inl h)
    · exact .inr (.inr ⟨h, hle.ended hended⟩)

/-- A snapshot that came from the store. -/
def Genuine (w : World) (stored : StoredRun) : Prop :=
  ∃ author, recorded w.snapshots stored.revision =
    some ⟨stored.record.runId, some stored.record, author⟩

theorem Consistent.of_recorded (hinv : Consistent sha256 w) {etag author : ℕ}
    {name : String} {record : RunRecord}
    (h : recorded w.snapshots etag = some ⟨name, some record, author⟩) :
    record.runId = name ∧ Tracked w record := by
  obtain ⟨other, hvalue, hname, htracked⟩ := hinv.writes _ (mem_of_recorded h)
  simp only [Option.some.injEq] at hvalue
  subst hvalue
  exact ⟨hname, htracked⟩

theorem Consistent.of_genuine (hinv : Consistent sha256 w) {stored : StoredRun}
    (h : Genuine w stored) : Tracked w stored.record := by
  obtain ⟨author, hrecorded⟩ := h
  exact (hinv.of_recorded hrecorded).2

theorem Consistent.of_current (hinv : Consistent sha256 w) {runId : String}
    {version : Version RunRecord} (h : current w.snapshots runId = some version) :
    version.value.runId = runId ∧ Tracked w version.value := by
  obtain ⟨author, hrecorded⟩ := recorded_of_current h
  exact hinv.of_recorded hrecorded

/-- A consistent world has no orphans. -/
theorem Consistent.noOrphans (hinv : Consistent sha256 w) : NoOrphans w := by
  intro runId version hcurrent hterminal _ _ e he hid
  obtain ⟨hname, htracked⟩ := hinv.of_current hcurrent
  rcases htracked with h | ⟨-, f, hf, hfid, -, hstate⟩
  · exact (hinv.separate runId version hcurrent hterminal h.attemptCount e he hid).elim
  · have hsame : e = f := hinv.unique e he f hf (hid.trans (hname.symm.trans hfid.symm))
    rw [hterminal] at hstate
    simp only [reduceCtorEq, false_or, true_and] at hstate
    rw [hsame]
    exact hstate

end Invariant

section Steps

/-- What a worker has to know when it makes a request. -/
def Sound (sha256 : String → String) : Request → World → Prop
  | .claim record, _ =>
    record.runState = .queued ∧ record.attemptCount = 0 ∧ record.backendHandle = none
  | .save stored record, w => Tracked w record ∧
    (record.runState = .terminal → record.attemptCount = 0 → stored.record.runState = .queued)
  | .submitOrAdopt _ runId attemptId _, _ => attemptIdentity sha256 runId 1 = .ok attemptId
  | _, _ => True

variable {sha256 : String → String} {w : World}

/-- Snapshots stay tracked when the world grows. -/
theorem Consistent.writes_mono (hinv : Consistent sha256 w) {later : World}
    (hle : Grows w later) {write : Write String RunRecord} (hmem : write ∈ w.snapshots) :
    ∃ record, write.value = some record ∧ record.runId = write.name ∧ Tracked later record := by
  obtain ⟨record, hvalue, hname, htracked⟩ := hinv.writes write hmem
  exact ⟨record, hvalue, hname, htracked.mono hle⟩

/-- Writing a tracked snapshot that does not cancel a run with an execution. -/
theorem Consistent.write (hinv : Consistent sha256 w) {record : RunRecord}
    (htracked : Tracked w record)
    (hseparate : record.runState = .terminal → record.attemptCount = 0 →
      ∀ e ∈ w.executions, e.runId ≠ record.runId) :
    Consistent sha256
        { w with snapshots := ⟨record.runId, some record, 0⟩ :: w.snapshots } ∧
      Grows w { w with snapshots := ⟨record.runId, some record, 0⟩ :: w.snapshots } := by
  have hle : Grows w { w with snapshots := ⟨record.runId, some record, 0⟩ :: w.snapshots } :=
    ⟨List.suffix_cons _ _, List.Subset.refl _, List.Subset.refl _⟩
  refine ⟨⟨?_, hinv.attempts, hinv.unique, ?_⟩, hle⟩
  · intro write hmem
    rcases List.mem_cons.mp hmem with rfl | hold
    · exact ⟨record, rfl, rfl, htracked.mono hle⟩
    · exact hinv.writes_mono hle hold
  · intro runId version hcurrent hterminal hcount
    by_cases hname : record.runId = runId
    · subst hname
      have hversion : version.value = record := by
        simp only [current, if_true, Option.map_some, Option.some.injEq] at hcurrent
        rw [← hcurrent]
      rw [hversion] at hterminal hcount
      exact hseparate hterminal hcount
    · rw [current_cons_of_ne (by simpa using hname)] at hcurrent
      exact hinv.separate runId version hcurrent hterminal hcount

theorem claimed_consistent (hinv : Consistent sha256 w) {record : RunRecord}
    (hsound : Sound sha256 (.claim record) w) :
    Consistent sha256 (w.claimed record).2 ∧ Grows w (w.claimed record).2 := by
  obtain ⟨hqueued, hcount, hhandle⟩ := hsound
  rcases w.claimed_cases record with ⟨-, heq⟩ | ⟨version, -, -, heq⟩ | ⟨e, heq⟩
  · rw [heq]
    apply hinv.write
    · exact .inl ⟨hcount, hhandle, .inl hqueued⟩
    · intro hterminal
      rw [hqueued] at hterminal
      cases hterminal
  · rw [heq]
    exact ⟨hinv, Grows.rfl' w⟩
  · rw [heq]
    exact ⟨hinv, Grows.rfl' w⟩

theorem save_consistent (hinv : Consistent sha256 w) {stored : StoredRun} {record : RunRecord}
    (horderly : Orderly (.save stored record) w) (hsound : Sound sha256 (.save stored record) w) :
    Consistent sha256 (w.save stored record).2 ∧ Grows w (w.save stored record).2 := by
  rcases w.save_cases stored record with ⟨-, htag, heq⟩ | ⟨e, heq⟩
  · rw [heq]
    apply hinv.write hsound.1
    intro hterminal hcount
    exact horderly htag (hsound.2 hterminal hcount) hterminal
  · rw [heq]
    exact ⟨hinv, Grows.rfl' w⟩

theorem appendAttempt_consistent (hinv : Consistent sha256 w) (attempt : AttemptRecord) :
    Consistent sha256 (w.appendAttempt attempt).2 ∧ Grows w (w.appendAttempt attempt).2 := by
  unfold World.appendAttempt
  split
  · have hle : Grows w { w with attempts := attempt :: w.attempts } :=
      ⟨List.suffix_refl _, List.Subset.refl _, List.Subset.refl _⟩
    exact ⟨⟨fun _ hmem => hinv.writes_mono hle hmem, hinv.attempts, hinv.unique,
      hinv.separate⟩, hle⟩
  · split <;> exact ⟨hinv, Grows.rfl' w⟩

/-- Accepting an execution of a run that was not cancelled before. -/
theorem submitOrAdopt_consistent (hinv : Consistent sha256 w) {plan : ExecutionPlan}
    {runId attemptId : String} {trigger : RunTrigger} (handle : BackendHandle)
    (horderly : Orderly (.submitOrAdopt plan runId attemptId trigger) w)
    (hsound : Sound sha256 (.submitOrAdopt plan runId attemptId trigger) w) :
    Consistent sha256 (w.submitOrAdopt runId attemptId handle).2 ∧
      Grows w (w.submitOrAdopt runId attemptId handle).2 := by
  unfold World.submitOrAdopt
  split
  · exact ⟨hinv, Grows.rfl' w⟩
  next hfind =>
    have hnew : ∀ e ∈ w.executions, e.runId ≠ runId := by
      intro e he hid
      have hattempt := hinv.attempts e he
      rw [hid, hsound] at hattempt
      have hne := List.find?_eq_none.mp hfind e he
      simp only [Except.ok.injEq] at hattempt
      simp [hid, hattempt] at hne
    have hle : Grows w { w with executions := ⟨runId, attemptId, handle⟩ :: w.executions } :=
      ⟨List.suffix_refl _, List.subset_cons_self _ _, List.Subset.refl _⟩
    refine ⟨⟨fun _ hmem => hinv.writes_mono hle hmem, ?_, ?_, ?_⟩, hle⟩
    · intro e he
      rcases List.mem_cons.mp he with rfl | hold
      · exact hsound
      · exact hinv.attempts e hold
    · intro e he f hf hid
      rcases List.mem_cons.mp he with rfl | he'
      · rcases List.mem_cons.mp hf with rfl | hf'
        · rfl
        · exact (hnew f hf' hid.symm).elim
      · rcases List.mem_cons.mp hf with rfl | hf'
        · exact (hnew e he' hid).elim
        · exact hinv.unique e he' f hf' hid
    · intro other version hcurrent hterminal hcount e he hid
      rcases List.mem_cons.mp he with rfl | he'
      · subst hid
        exact horderly version hcurrent hterminal hcount
      · exact hinv.separate other version hcurrent hterminal hcount e he' hid

theorem observe_consistent (hinv : Consistent sha256 w) (handle : BackendHandle)
    (observation : BackendObservation) :
    Consistent sha256 (w.observe handle observation).2 ∧
      Grows w (w.observe handle observation).2 := by
  unfold World.observe
  split
  · have hle : Grows w { w with ended := handle :: w.ended } :=
      ⟨List.suffix_refl _, List.Subset.refl _, List.subset_cons_self _ _⟩
    exact ⟨⟨fun _ hmem => hinv.writes_mono hle hmem, hinv.attempts, hinv.unique,
      hinv.separate⟩, hle⟩
  · exact ⟨hinv, Grows.rfl' w⟩

/-- Every request a worker may make keeps the world consistent. -/
theorem serve_consistent (hinv : Consistent sha256 w) {o : Request} (horderly : Orderly o w)
    (hsound : Sound sha256 o w) (oracle : Oracle) :
    Consistent sha256 (serve oracle o w).2 ∧ Grows w (serve oracle o w).2 := by
  cases o with
  | claim record => exact claimed_consistent hinv hsound
  | get runId => exact ⟨hinv, Grows.rfl' w⟩
  | save stored record => exact save_consistent hinv horderly hsound
  | appendAttempt attempt => exact appendAttempt_consistent hinv attempt
  | submitOrAdopt plan runId attemptId trigger =>
    exact submitOrAdopt_consistent hinv oracle.handle horderly hsound
  | observe plan handle => exact observe_consistent hinv handle oracle.observation
  | cancel plan handle => exact ⟨hinv, Grows.rfl' w⟩
  | clock => exact ⟨hinv, Grows.rfl' w⟩

end Steps

section Rules

variable {S α β : Type} {m : Machine Request Answer S} {D : Discipline S} {Q : α → S → Prop}
  {E : LifecycleError → S → Prop} {s : S}

theorem safe_liftStore {result : Except RunStoreError α} :
    Safe m D (fun _ _ => True) (fun _ _ => True) (liftStore result) s := by
  cases result <;> trivial

theorem safe_liftContract {result : Except ContractError β} {f : β → Action α}
    (hf : ∀ a, result = .ok a → Safe m D Q (fun _ _ => True) (f a) s) :
    Safe m D Q (fun _ _ => True) (liftContract result >>= f) s := by
  cases result with
  | ok a => exact hf a rfl
  | error e => trivial

theorem safe_liftRegistry {result : Except LifecycleError β} {f : β → Action α}
    (hf : ∀ a, result = .ok a → Safe m D Q (fun _ _ => True) (f a) s) :
    Safe m D Q (fun _ _ => True) (liftRegistry result >>= f) s := by
  cases result with
  | ok a => exact hf a rfl
  | error e => trivial

theorem safe_bind {p : Action β} {f : β → Action α}
    (hp : Safe m D (fun _ _ => True) E p s) (hf : ∀ a t, D.le s t → Safe m D Q E (f a) t) :
    Safe m D Q E (p >>= f) s :=
  Safe.bind hp (fun a t ht _ => hf a t ht)

/-- A cancellation's snapshot is saved as its last request. -/
theorem safe_saveCancellation {stored : StoredRun} {record : RunRecord}
    (h : ∀ next : Except RunStoreError StoredRun → Action StoredRun,
      (∀ saved t, Safe m D (fun _ _ => True) (fun _ _ => True) (next saved) t) →
      Safe m D (fun _ _ => True) (fun _ _ => True) (.call (.save stored record) next) s) :
    Safe m D (fun _ _ => True) (fun _ _ => True) (saveCancellation stored record) s := by
  apply h
  intro saved t
  match saved with
  | .ok stored => trivial
  | .error (.conflict _) => trivial
  | .error (.idempotencyConflict _) => trivial
  | .error (.corruption _) => trivial
  | .error (.failure _) => trivial

end Rules

section Programs

variable {sha256 : String → String}

/-- The services while submissions and queued cancellations keep their order. -/
def orderlyServices : Machine Request Answer World := services.restrict Orderly

/-- Safety of a lifecycle program; its end promises nothing. -/
def Keeps {α : Type} (sha256 : String → String) (p : Action α) (w : World) : Prop :=
  Safe orderlyServices (discipline sha256) (fun _ _ => True) (fun _ _ => True) p w

variable {α β : Type} {w : World}

/-- One request: what must be known of it, and how the worker goes on. -/
theorem keeps_request {o : Request} {next : Answer o → Action α}
    (hsound : ∀ t, Grows w t → Consistent sha256 t → Sound sha256 o t)
    (hfailed : ∀ answer t, Grows w t → Failed o answer → Keeps sha256 (next answer) t)
    (hserved : ∀ t oracle, Grows w t → Consistent sha256 t →
      Grows t (serve oracle o t).2 → Consistent sha256 (serve oracle o t).2 →
      Keeps sha256 (next (serve oracle o t).1) (serve oracle o t).2) :
    Keeps sha256 (.call o next) w := by
  intro t ht hinv answer t' hstep
  obtain ⟨horderly, hstep⟩ := hstep
  have hserve := serve_consistent hinv horderly (hsound t ht hinv)
  rcases hstep with ⟨oracle, hanswer⟩ | ⟨hfail, rfl | ⟨oracle, rfl⟩⟩
  · obtain ⟨hinv', hle'⟩ := hserve oracle
    have hnext := hserved t oracle ht hinv hle' hinv'
    rw [hanswer] at hinv' hle' hnext
    exact ⟨hinv', hle', hnext⟩
  · exact ⟨hinv, Grows.rfl' _, hfailed answer _ ht hfail⟩
  · obtain ⟨hinv', hle'⟩ := hserve oracle
    exact ⟨hinv', hle', hfailed answer _ (ht.trans hle') hfail⟩

/-- The last request of a program. -/
theorem keeps_last {o : Request} {next : Answer o → Action α}
    (hsound : ∀ t, Grows w t → Consistent sha256 t → Sound sha256 o t)
    (hnext : ∀ answer t, Keeps sha256 (next answer) t) : Keeps sha256 (.call o next) w :=
  keeps_request hsound (fun answer t _ _ => hnext answer t) (fun _ _ _ _ _ _ => hnext _ _)

theorem submitOrAdopt_answer (w : World) (runId attemptId : String) (handle : BackendHandle) :
    ∃ e ∈ (w.submitOrAdopt runId attemptId handle).2.executions,
      e.runId = runId ∧ (w.submitOrAdopt runId attemptId handle).1 = some e.handle := by
  unfold World.submitOrAdopt
  split
  next e hfind =>
    have hmatches := List.find?_some hfind
    rw [Bool.and_eq_true, decide_eq_true_eq] at hmatches
    exact ⟨e, List.mem_of_find?_eq_some hfind, hmatches.1, rfl⟩
  · exact ⟨_, List.mem_cons_self, rfl, rfl⟩

theorem keeps_submitAttempt {stored : StoredRun} {plan : ExecutionPlan} {now : ℤ}
    {attemptId : String}
    (hattempt : attemptIdentity sha256 stored.record.runId 1 = .ok attemptId) :
    Keeps sha256 (submitAttempt sha256 stored plan now 1 attemptId) w := by
  apply keeps_last
  · intros
    trivial
  · intro appended t
    apply safe_bind safe_liftStore
    intro _ u _
    apply keeps_request
    · intros
      exact hattempt
    · intro answer v _ hfailed
      obtain rfl : answer = none := hfailed
      trivial
    · intro v oracle _ _ _ _
      obtain ⟨e, hmem, hid, hanswer⟩ :=
        submitOrAdopt_answer v stored.record.runId attemptId oracle.handle
      simp only [serve, hanswer]
      split
      · trivial
      · apply safe_liftContract
        intro updated hupdated
        obtain rfl := transitionRun_eq_ok hupdated
        apply keeps_last
        · intro x hx _
          refine ⟨.inr ⟨by simp [RunRecord.changed], e, hx.executions hmem, hid, rfl, .inl rfl⟩, ?_⟩
          intro hterminal
          cases hterminal
        · intro saved x
          exact safe_liftStore

theorem keeps_dispatchStoredRunAttempt {stored : StoredRun} {plan : ExecutionPlan} {now : ℤ}
    (htracked : Tracked w stored.record) :
    Keeps sha256 (dispatchStoredRunAttempt sha256 stored plan now) w := by
  simp only [dispatchStoredRunAttempt]
  split
  · trivial
  · split
    · trivial
    · split
      · trivial
      next hstate =>
        have hcount : stored.record.attemptCount = 0 := by
          rcases htracked with h | ⟨-, e, -, -, -, hother⟩
          · exact h.attemptCount
          · simp only [List.mem_cons, List.not_mem_nil, or_false, not_not] at hstate
            rcases hstate with h | h <;> simp [h] at hother
        split
        · trivial
        · rw [hcount]
          apply safe_liftContract
          intro attemptId hattempt
          exact keeps_submitAttempt hattempt

theorem keeps_dispatchRunAttempt {submission : RunSubmission} {plan : ExecutionPlan} {now : ℤ} :
    Keeps sha256 (dispatchRunAttempt sha256 submission plan now) w := by
  apply safe_liftContract
  intro _ _
  apply keeps_request
  · intros
    exact ⟨rfl, rfl, rfl⟩
  · rintro answer t _ ⟨message, rfl⟩
    trivial
  · intro t oracle _ _ _ hinv'
    cases hanswer : (serve oracle (.claim (createRunRecord sha256 submission)) t).1 with
    | error e => trivial
    | ok claim =>
      obtain ⟨⟨author, hrecorded⟩, -⟩ := recorded_of_claimed (Prod.ext hanswer rfl)
      have htracked := (hinv'.of_recorded hrecorded).2
      simp only [liftStore, Prog.ret_bind]
      split
      · trivial
      · exact keeps_dispatchStoredRunAttempt htracked

/-- What an observation leads to is tracked, once the observation is accounted for. -/
theorem tracked_observedRecord {record updated : RunRecord} {observation : BackendObservation}
    {handle : BackendHandle} (htracked : Tracked w record)
    (hhandle : record.backendHandle = some handle)
    (hended : observation.executionState = .terminal → handle ∈ w.ended)
    (h : observedRecord sha256 record observation = .ok (some updated)) :
    Dispatched w updated := by
  rcases htracked with hun | ⟨hcount, e, hmem, hid, heq, -⟩
  · rw [hun.handle] at hhandle
    cases hhandle
  · have hsame : e.handle = handle := by
      rw [heq] at hhandle
      exact Option.some.inj hhandle
    obtain ⟨hterminal, rfl⟩ | ⟨state, hstate, rfl⟩ := observedRecord_cases h
    · exact ⟨hcount, e, hmem, hid, heq, .inr (.inr ⟨rfl, hsame ▸ hended hterminal⟩)⟩
    · refine ⟨hcount, e, hmem, hid, heq, ?_⟩
      rcases hstate with rfl | rfl
      · exact .inl rfl
      · exact .inr (.inl rfl)

theorem Dispatched.sound {stored : StoredRun} {record : RunRecord} (h : Dispatched w record) :
    Sound sha256 (.save stored record) w :=
  ⟨.inr h, fun _ hcount => (h.attemptCount hcount).elim⟩

theorem keeps_observeStored {stored : StoredRun} {plan : ExecutionPlan} {handle : BackendHandle}
    (htracked : Tracked w stored.record) (hhandle : stored.record.backendHandle = some handle) :
    Keeps sha256 (observeStored sha256 stored plan handle) w := by
  apply keeps_request
  · intros
    trivial
  · intro answer t _ hfailed
    obtain rfl : answer = none := hfailed
    trivial
  · intro t oracle ht _ hle _
    apply safe_liftContract
    intro updated hupdated
    cases updated with
    | none => trivial
    | some updated =>
      have hended : oracle.observation.executionState = .terminal →
          handle ∈ (serve oracle (.observe plan handle) t).2.ended := by
        intro hterminal
        simp [serve, World.observe, hterminal]
      have hdispatched := tracked_observedRecord ((htracked.mono ht).mono hle) hhandle hended
        hupdated
      simp only
      split
      · trivial
      · apply keeps_last
        · intro u hu _
          rcases Tracked.mono (.inr hdispatched) hu with hun | hlater
          · exact (hdispatched.attemptCount hun.attemptCount).elim
          · exact hlater.sound
        · intro saved u
          exact safe_liftStore

theorem keeps_reconcileStored {registry : Registry} {stored : StoredRun}
    (htracked : Tracked w stored.record) :
    Keeps sha256 (reconcileStored sha256 registry stored) w := by
  simp only [reconcileStored]
  split
  · trivial
  · apply safe_liftRegistry
    intro plan _
    split
    · apply keeps_request
      · intros
        trivial
      · rintro answer t _ ⟨⟩
      · intro t oracle ht _ hle _
        exact keeps_dispatchStoredRunAttempt ((htracked.mono ht).mono hle)
    · split
      · split <;> trivial
      next handle hhandle =>
        split
        · apply keeps_request
          · intros
            trivial
          · intro answer t _ hfailed
            obtain rfl : answer = none := hfailed
            trivial
          · intro t oracle ht _ hle _
            exact keeps_observeStored ((htracked.mono ht).mono hle) hhandle
        · exact keeps_observeStored htracked hhandle

theorem keeps_saveCancellation {stored : StoredRun} {record : RunRecord}
    (hsound : ∀ t, Grows w t → Sound sha256 (.save stored record) t) :
    Keeps sha256 (saveCancellation stored record) w :=
  safe_saveCancellation fun _ hnext => keeps_last (fun t ht _ => hsound t ht) hnext

/-- A run that was read is tracked. -/
theorem safe_requireRun {runId : String} :
    Safe orderlyServices (discipline sha256) (fun stored t => Tracked t stored.record)
      (fun _ _ => True) (requireRun runId) w := by
  intro t ht hinv answer t' hstep
  obtain ⟨-, ⟨oracle, hanswer⟩ | ⟨⟨message, rfl⟩, rfl | ⟨oracle, rfl⟩⟩⟩ := hstep
  · obtain ⟨rfl, rfl⟩ := Prod.mk.inj hanswer
    refine ⟨hinv, Grows.rfl' _, ?_⟩
    cases hcurrent : current t.snapshots runId with
    | none => trivial
    | some version =>
      simp only [Option.map_some]
      exact (hinv.of_current hcurrent).2
  · exact ⟨hinv, Grows.rfl' _, trivial⟩
  · exact ⟨hinv, Grows.rfl' _, trivial⟩

theorem keeps_markCanceling {stored : StoredRun} {handle : BackendHandle}
    (htracked : Tracked w stored.record) (hhandle : stored.record.backendHandle = some handle) :
    Keeps sha256 (markCanceling sha256 stored) w := by
  unfold markCanceling
  split
  · trivial
  · apply keeps_request
    · intros
      trivial
    · rintro answer t _ ⟨⟩
    · intro t oracle ht _ hle _
      apply safe_liftContract
      intro canceling hcanceling
      obtain rfl := transitionRun_eq_ok hcanceling
      apply keeps_saveCancellation
      intro u hu
      rcases ((htracked.mono ht).mono hle).mono hu with hun | ⟨hcount, e, hmem, hid, heq, -⟩
      · rw [hun.handle] at hhandle
        cases hhandle
      · exact Dispatched.sound ⟨hcount, e, hmem, hid, heq, .inr (.inl rfl)⟩

theorem keeps_cancelOnce {registry : Registry} {runId : String} :
    Keeps sha256 (cancelOnce sha256 registry runId) w := by
  refine Safe.bind safe_requireRun ?_
  intro stored t _ htracked
  simp only
  split
  · apply safe_liftContract
    intros
    trivial
  · split
    next hqueued =>
      apply keeps_request
      · intros
        trivial
      · rintro answer u _ ⟨⟩
      · intro u oracle hu _ _ _
        apply safe_liftContract
        intro canceled hcanceled
        obtain rfl := transitionRun_eq_ok hcanceled
        apply safe_bind
        · apply keeps_saveCancellation
          intro v _
          refine ⟨?_, fun _ _ => hqueued⟩
          rcases htracked with hun | ⟨-, e, -, -, -, hother⟩
          · exact .inl ⟨hun.attemptCount, hun.handle, .inr rfl⟩
          · simp [hqueued] at hother
        · intro saved v _
          apply safe_liftContract
          intros
          trivial
    · split
      · trivial
      next hsome =>
        obtain ⟨handle, hhandle⟩ := Option.ne_none_iff_exists'.mp
          (fun hnone => hsome (Option.isNone_iff_eq_none.mpr hnone))
        apply safe_bind (keeps_markCanceling htracked hhandle)
        intro marked u _
        apply safe_liftRegistry
        intro plan _
        split
        · trivial
        · apply keeps_last
          · intros
            trivial
          · intro canceled v
            cases canceled <;> trivial

end Programs

section Runs

abbrev LifecycleConfig := Config Request Answer LifecycleError Outcome Call World

abbrev LifecycleEvent := Event Request Answer LifecycleError Outcome Call

/-- Workers are given snapshots that came from the store. -/
def Admitted (cfg : LifecycleConfig) : LifecycleEvent → Prop
  | .issued _ call =>
    match call.work with
    | .dispatchStored stored _ _ => Genuine cfg.state stored
    | .reconcile stored => Genuine cfg.state stored
    | .dispatch .. => True
    | .cancel _ => True
  | _ => True

variable {sha256 : String → String} {events : List LifecycleEvent} {cfg : LifecycleConfig}

theorem keeps_perform {i : ℕ} {call : Call} (h : Admitted cfg (.issued i call))
    (hinv : Consistent sha256 cfg.state) : Keeps sha256 (perform sha256 call) cfg.state := by
  obtain ⟨registry, work⟩ := call
  cases work with
  | dispatch submission plan now =>
    exact safe_bind keeps_dispatchRunAttempt (fun _ _ _ => trivial)
  | dispatchStored stored plan now =>
    exact safe_bind (keeps_dispatchStoredRunAttempt (hinv.of_genuine h)) (fun _ _ _ => trivial)
  | reconcile stored =>
    exact safe_bind (keeps_reconcileStored (hinv.of_genuine h)) (fun _ _ _ => trivial)
  | cancel runId => exact safe_bind keeps_cancelOnce (fun _ _ _ => trivial)

/-- In every interleaving, with any crashes, in which submissions and cancellations of queued
runs keep their order, no cancelled and cleaned-up run has an execution not seen to end. -/
theorem no_orphans_when_orderly
    (run : Run orderlyServices (perform sha256) Admitted (Config.start World.empty) events cfg) :
    NoOrphans cfg.state := by
  have hstart : Consistent sha256 World.empty :=
    ⟨by simp [World.empty], by simp [World.empty], by simp [World.empty],
      by simp [World.empty]⟩
  have hstable : ∀ {α : Type} (_ : Call),
      Stable (discipline sha256) (fun (_ : α) (_ : World) => True) := by
    intro α _ a s t _ _
    trivial
  have hsafe := run.poolSafe (D := discipline sha256) (fun c => hstable c) (fun c => hstable c)
    (fun cfg i c h hinv => keeps_perform h hinv) (PoolSafe.start hstart)
  exact hsafe.1.1.noOrphans

instance (o : Request) (w : World) : Decidable (Orderly o w) :=
  match o with
  | .save stored record => inferInstanceAs (Decidable
      (tag w.snapshots record.runId = some stored.revision → stored.record.runState = .queued →
        record.runState = .terminal → ∀ e ∈ w.executions, e.runId ≠ record.runId))
  | .submitOrAdopt _ runId _ _ => inferInstanceAs (Decidable
      (∀ version ∈ current w.snapshots runId,
        version.value.runState = .terminal → version.value.attemptCount ≠ 0))
  | .claim _ => isTrue trivial
  | .get _ => isTrue trivial
  | .appendAttempt _ => isTrue trivial
  | .observe .. => isTrue trivial
  | .cancel .. => isTrue trivial
  | .clock => isTrue trivial

/-- The digests of the texts that one submission and its first attempt hash. -/
def digest (text : String) : String :=
  if text = "request-1" then
    "19f1064b619d49d35392eac7261cd7266c720671fc594f4b226f32bf0bee74ba"
  else if text = "e:p:19f1064b619d49d35392eac7261cd7266c720671fc594f4b226f32bf0bee74ba" then
    "cb6b93ab8cf7aee4db55b62fed4a7c17049a2d69e87038ff1990c3aced402d02"
  else if text = "run-cb6b93ab8cf7aee4db55b62f:1" then
    "7a064ea9c221979af6180404a9a224764e850abe254aa5691593b47b9659e6c0"
  else "8f6a147f34a6ce74bbee4c98458caec64eab7d38069e5e3058c1cecf484df2e5"

def examplePlan : ExecutionPlan where
  planId := "n"
  environment := "e"
  project := "p"
  graph := "g"
  graphRevision := "1"
  graphContentSha256 := "cd0aa9856147b6c5b4ff2b7dfee5da20aa38253099ef1b4a64aced233c9afe29"
  backendId := "b"
  deadlineSeconds := 60
  maxAttempts := 1
  taskCount := 1
  revision := "1b16b1df538ba12dc3f97edbb85caa7050d46c148134290feba80f8236c83db9"

def exampleSubmission : RunSubmission where
  environment := "e"
  project := "p"
  graph := ⟨"p", "g", "1", examplePlan.graphContentSha256⟩
  planId := "n"
  planRevision := examplePlan.revision
  trigger := ⟨.manual, "m", none, none, none⟩
  idempotencyKey := "request-1"
  requestedAt := 0
  requestedDeadlineSeconds := none
  placementDecision := none
  sizeClassDecision := none

def exampleRegistry : Registry := ⟨[examplePlan], ["b"]⟩

/-- A provider that reports the one execution as cancelled and cleaned up. -/
def canceledOracle : Oracle :=
  ⟨1, ⟨"b", "x"⟩, ⟨.terminal, .canceled, .unavailable, .confirmed, 2, none, none⟩⟩

def exampleDispatch : Call := ⟨exampleRegistry, .dispatch exampleSubmission examplePlan 1⟩

def exampleCancel : Call := ⟨exampleRegistry, .cancel "run-cb6b93ab8cf7aee4db55b62f"⟩

/-- The stored snapshot of a run says that it was cancelled and cleaned up. -/
def CanceledAt (runId : String) (w : World) : Prop :=
  ∃ version ∈ current w.snapshots runId,
    version.value.runState = .terminal ∧ version.value.outcome = .canceled ∧
      version.value.cleanupState = .confirmed

instance (runId : String) : DecidablePred (CanceledAt runId) := fun w =>
  inferInstanceAs (Decidable (∃ version ∈ current w.snapshots runId,
    version.value.runState = .terminal ∧ version.value.outcome = .canceled ∧
      version.value.cleanupState = .confirmed))

def HasOrphan (w : World) : Prop :=
  ∃ e ∈ w.executions, e.handle ∉ w.ended ∧ CanceledAt e.runId w

instance : DecidablePred HasOrphan := fun w =>
  inferInstanceAs (Decidable (∃ e ∈ w.executions, e.handle ∉ w.ended ∧ CanceledAt e.runId w))

theorem HasOrphan.not_noOrphans {w : World} (h : HasOrphan w) : ¬ NoOrphans w := by
  obtain ⟨e, hmem, hlive, version, hcurrent, hstate, houtcome, hcleanup⟩ := h
  intro hno
  exact hlive (hno e.runId version hcurrent hstate houtcome hcleanup e hmem rfl)

/-- Calls with genuine snapshots; every snapshot is written under the same author. -/
def admitsGenuine (cfg : LifecycleConfig) (call : Call) : Bool :=
  match call.work with
  | .dispatchStored stored _ _ => isRecorded cfg.state stored
  | .reconcile stored => isRecorded cfg.state stored
  | .dispatch .. => true
  | .cancel _ => true
where
  isRecorded (w : World) (stored : StoredRun) : Bool :=
    recorded w.snapshots stored.revision = some ⟨stored.record.runId, some stored.record, 0⟩

theorem admitted_of_admitsGenuine (cfg : LifecycleConfig) (event : LifecycleEvent)
    (h : ∀ i call, event = .issued i call → admitsGenuine cfg call = true) :
    Admitted cfg event := by
  cases event with
  | issued i call =>
    have hcall := h i call rfl
    obtain ⟨registry, work⟩ := call
    cases work with
    | dispatch submission plan now => trivial
    | cancel runId => trivial
    | dispatchStored stored plan now => exact ⟨0, of_decide_eq_true hcall⟩
    | reconcile stored => exact ⟨0, of_decide_eq_true hcall⟩
  | performed i call o r => trivial
  | finished i call out => trivial
  | crashed i => trivial

/-- A dispatcher that stops between its submission and its save leaves the run queued, and a
cancellation then confirms a cleanup while the execution is live. -/
theorem crashed_dispatch_is_orphaned :
    ¬ ∀ events cfg,
      Run services (perform digest) Admitted (Config.start World.empty) events cfg →
      NoOrphans cfg.state := by
  intro hall
  have hplay : (play (fun o w => some (serve canceledOracle o w)) (perform digest) admitsGenuine
      (Config.start World.empty)
      [.issue 0 exampleDispatch, .exec 0, .exec 0, .exec 0, .crash 0,
        .issue 1 exampleCancel, .exec 1, .exec 1, .exec 1, .finish 1]).any
      (fun last => decide (HasOrphan last.state)) = true := by decide +kernel
  obtain ⟨events, cfg, hrun, horphan⟩ : ∃ events cfg,
      Run services (perform digest) Admitted (Config.start World.empty) events cfg ∧
        HasOrphan cfg.state :=
    play_reaches (m := services) (P := HasOrphan)
      (fun _ _ _ _ h => .inl ⟨canceledOracle, Option.some.inj h⟩)
      admitted_of_admitsGenuine hplay
  exact horphan.not_noOrphans (hall events cfg hrun)

/-- The snapshot a cancellation leaves of a run that was dispatched before. -/
def cancelingRun : StoredRun where
  record := ((createRunRecord digest exampleSubmission).changed .running 1
    { attemptCount := some 1, currentAttemptId := some "attempt-1-7a064ea9c221979af618",
      backendHandle := some ⟨"b", "x"⟩, stage := some "submitted" }).changed .canceling 1
      { stage := some "canceling" }
  revision := 2

def exampleReconcile : Call := ⟨exampleRegistry, .reconcile cancelingRun⟩

/-- A run that is dispatched, cancelled, and reconciled once its execution has ended. -/
theorem no_orphans_when_orderly_canceled :
    ∃ events cfg,
      Run orderlyServices (perform digest) Admitted (Config.start World.empty) events cfg ∧
      CanceledAt cancelingRun.record.runId cfg.state ∧ NoOrphans cfg.state := by
  have hplay : (play
      (fun o w => if Orderly o w then some (serve canceledOracle o w) else none)
      (perform digest) admitsGenuine (Config.start World.empty)
      [.issue 0 exampleDispatch, .exec 0, .exec 0, .exec 0, .exec 0, .finish 0,
        .issue 1 exampleCancel, .exec 1, .exec 1, .exec 1, .exec 1, .finish 1,
        .issue 2 exampleReconcile, .exec 2, .exec 2, .exec 2, .finish 2]).any
      (fun last => decide (CanceledAt cancelingRun.record.runId last.state)) = true := by
    decide +kernel
  have hserve : ∀ o w answer w',
      (if Orderly o w then some (serve canceledOracle o w) else none) = some (answer, w') →
      orderlyServices.step o w answer w' := by
    intro o w answer w' h
    split at h
    next horderly => exact ⟨horderly, .inl ⟨canceledOracle, Option.some.inj h⟩⟩
    · cases h
  obtain ⟨events, cfg, hrun, hcanceled⟩ : ∃ events cfg,
      Run orderlyServices (perform digest) Admitted (Config.start World.empty) events cfg ∧
        CanceledAt cancelingRun.record.runId cfg.state :=
    play_reaches (P := CanceledAt cancelingRun.record.runId) hserve
      admitted_of_admitsGenuine hplay
  exact ⟨events, cfg, hrun, hcanceled, no_orphans_when_orderly hrun⟩

end Runs

end Dander.Lifecycle
