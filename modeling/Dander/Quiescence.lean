import Dander.RunEntryPoints
import Dander.RunLifecycleSafety

/-!
# Quiescent runs

A run that needs no more reconciliation stays as it is: whatever is called for it later, and
however the calls interleave, its snapshot is not replaced and no backend hears of it.
-/
namespace Dander.Lifecycle

open Interleaving ObjectStore Orchestration

section Property

variable {O : Type} {R : O → Type} {M : Type}

/-- A call of an execution backend that launches, observes or cancels. -/
def backendCall : Request → Bool
  | .submitOrAdopt .. => true
  | .observe .. => true
  | .cancel .. => true
  | _ => false

/-- The call is about the run; a snapshot that the caller brings is the stored one. -/
def Entry.OnRun (sha256 : String → String) (runId : String) (w : World) : Entry → Prop
  | .start submission => logicalRunIdentity sha256 submission = runId
  | .cancel address _ => address = runId
  | .reconcile stored => current w.snapshots runId = some ⟨stored.revision, stored.record⟩
  | .dispatch submission _ _ => logicalRunIdentity sha256 submission = runId
  | .dispatchStored stored _ _ => current w.snapshots runId = some ⟨stored.revision, stored.record⟩

/-- Only calls about the run are made. -/
def OnlyOnRun (sha256 : String → String) (runId : String)
    (cfg : Config (EntryRequest O) (EntryAnswer R) LifecycleError EntryOutcome EntryCall
      (EntryWorld M)) :
    Event (EntryRequest O) (EntryAnswer R) LifecycleError EntryOutcome EntryCall → Prop
  | .issued _ call => call.entry.OnRun sha256 runId cfg.state.runs
  | _ => True

end Property

section Runs

variable {sha256 : String → String} {runId : String} {version : Version RunRecord} {α β : Type}

/-- The run has this snapshot, and no operation so far was one of a backend. -/
def quietDiscipline (runId : String) (version : Version RunRecord) :
    Discipline (World × List (Sigma Answer)) where
  inv s := current s.1.snapshots runId = some version ∧ ∀ done ∈ s.2, backendCall done.1 = false
  le _ _ := True
  refl _ := trivial
  trans _ _ _ _ _ := trivial

def Quiet (runId : String) (version : Version RunRecord) (p : Action α) : Prop :=
  ∀ s, Safe services.traced (quietDiscipline runId version) (fun _ _ => True) (fun _ _ => True) p s

theorem Quiet.ret (a : α) : Quiet runId version (.ret a) := fun _ => trivial

theorem Quiet.raise (e : LifecycleError) : Quiet runId version (.raise e : Action α) :=
  fun _ => trivial

theorem Quiet.bind {p : Action α} {f : α → Action β} (hp : Quiet runId version p)
    (hf : ∀ a, Quiet runId version (f a)) : Quiet runId version (p >>= f) :=
  fun s => (hp s).bind fun a t _ _ => hf a t

theorem Quiet.tryCatch {p : Action α} {h : LifecycleError → Action α}
    (hp : Quiet runId version p) (hh : ∀ e, Quiet runId version (h e)) :
    Quiet runId version (p.tryCatch h) :=
  fun s => (hp s).tryCatch fun e t _ _ => hh e t

theorem Quiet.liftContract (result : Except ContractError α) :
    Quiet runId version (liftContract result) := by
  cases result with
  | ok value => exact Quiet.ret value
  | error e => exact Quiet.raise _

theorem Quiet.liftStore (result : Except RunStoreError α) :
    Quiet runId version (liftStore result) := by
  cases result with
  | ok value => exact Quiet.ret value
  | error e => exact Quiet.raise _

theorem Quiet.liftRegistry (result : Except LifecycleError α) :
    Quiet runId version (liftRegistry result) := by
  cases result with
  | ok value => exact Quiet.ret value
  | error e => exact Quiet.raise _

/-- A request that leaves the run's snapshot alone. -/
theorem Quiet.request {o : Request} {next : Answer o → Action α} (hbackend : backendCall o = false)
    (hkeep : ∀ oracle w, current w.snapshots runId = some version →
      current (serve oracle o w).2.snapshots runId = some version)
    (hfailed : ∀ answer, Failed o answer → Quiet runId version (next answer))
    (hserved : ∀ oracle w, current w.snapshots runId = some version →
      Quiet runId version (next (serve oracle o w).1)) :
    Quiet runId version (.call o next) := by
  intro s t _ hinv answer t' hstep
  obtain ⟨hstep, htrace⟩ := hstep
  have hquiet : ∀ done ∈ t'.2, backendCall done.1 = false := by
    rw [htrace]
    intro done hdone
    rcases List.mem_append.mp hdone with hdone | hdone
    · exact hinv.2 done hdone
    · rw [List.mem_singleton.mp hdone]
      exact hbackend
  rcases hstep with ⟨oracle, heq⟩ | ⟨hfail, hsame | ⟨oracle, heq⟩⟩
  · have hcurrent := hkeep oracle t.1 hinv.1
    have hnext := hserved oracle t.1 hinv.1
    rw [heq] at hcurrent hnext
    exact ⟨⟨hcurrent, hquiet⟩, trivial, hnext t'⟩
  · have hcurrent := hinv.1
    rw [← hsame] at hcurrent
    exact ⟨⟨hcurrent, hquiet⟩, trivial, hfailed answer hfail t'⟩
  · have hcurrent := hkeep oracle t.1 hinv.1
    rw [← heq] at hcurrent
    exact ⟨⟨hcurrent, hquiet⟩, trivial, hfailed answer hfail t'⟩

theorem Quiet.get {address : String} {next : Except RunStoreError (Option StoredRun) → Action α}
    (hfailed : ∀ message, Quiet runId version (next (.error (.failure message))))
    (hfound : ∀ w : World, current w.snapshots runId = some version → Quiet runId version
      (next (.ok ((current w.snapshots address).map fun found => ⟨found.value, found.etag⟩)))) :
    Quiet runId version (.call (.get address) next) := by
  apply Quiet.request rfl
  · intro oracle w hcurrent
    exact hcurrent
  · rintro answer ⟨message, rfl⟩
    exact hfailed message
  · intro oracle w hcurrent
    exact hfound w hcurrent

theorem Quiet.clock {next : ℤ → Action α} (hnext : ∀ now, Quiet runId version (next now)) :
    Quiet runId version (.call .clock next) := by
  apply Quiet.request rfl
  · intro oracle w hcurrent
    exact hcurrent
  · intro answer hfail
    exact hfail.elim
  · intro oracle w _
    exact hnext oracle.clock

/-- Claiming the run again finds its snapshot. -/
theorem Quiet.claim {record : RunRecord} (hid : record.runId = runId)
    {next : Except RunStoreError RunClaim → Action α}
    (herror : ∀ e, Quiet runId version (next (.error e)))
    (hfound : Quiet runId version (next (.ok ⟨⟨version.value, version.etag⟩, false⟩))) :
    Quiet runId version (.call (.claim record) next) := by
  have hclaimed : ∀ w : World, current w.snapshots runId = some version →
      (w.claimed record).2 = w ∧ ((∃ e, (w.claimed record).1 = .error e) ∨
        (w.claimed record).1 = .ok ⟨⟨version.value, version.etag⟩, false⟩) := by
    intro w hcurrent
    rw [← hid] at hcurrent
    unfold World.claimed
    rw [hcurrent]
    dsimp only
    split
    · exact ⟨rfl, .inl ⟨_, rfl⟩⟩
    · split
      · exact ⟨rfl, .inl ⟨_, rfl⟩⟩
      · exact ⟨rfl, .inr rfl⟩
  apply Quiet.request rfl
  · intro oracle w hcurrent
    show current (w.claimed record).2.snapshots runId = some version
    rw [(hclaimed w hcurrent).1]
    exact hcurrent
  · rintro answer ⟨message, rfl⟩
    exact herror _
  · intro oracle w hcurrent
    show Quiet runId version (next (w.claimed record).1)
    rcases (hclaimed w hcurrent).2 with ⟨e, he⟩ | hok
    · rw [he]
      exact herror e
    · rw [hok]
      exact hfound

/-- A quiescent run has ended. -/
theorem terminal_of_quiescent {record : RunRecord} (h : runNeedsReconciliation record = false) :
    record.runState = .terminal := by
  simp [runNeedsReconciliation] at h
  exact h.1.1.1

theorem Quiet.dispatchStored {stored : StoredRun} (hterminal : stored.record.runState = .terminal)
    (plan : ExecutionPlan) (now : ℤ) :
    Quiet runId version (dispatchStoredRunAttempt sha256 stored plan now) := by
  unfold dispatchStoredRunAttempt
  dsimp only
  split
  · exact Quiet.raise _
  split
  · exact Quiet.raise _
  rw [if_pos (by simp [hterminal])]
  exact Quiet.ret stored

theorem Quiet.dispatch {submission : RunSubmission}
    (hquiet : runNeedsReconciliation version.value = false)
    (hid : logicalRunIdentity sha256 submission = runId) (plan : ExecutionPlan) (now : ℤ) :
    Quiet runId version (dispatchRunAttempt sha256 submission plan now) := by
  refine (Quiet.liftContract _).bind fun _ => ?_
  apply Quiet.claim hid
  · intro e
    exact Quiet.raise _
  · show Quiet runId version (ite _ _ _)
    split
    · exact Quiet.raise _
    · exact Quiet.dispatchStored (terminal_of_quiescent hquiet) plan now

theorem Quiet.recoverStart {submission : RunSubmission} (e : LifecycleError) :
    Quiet runId version (recoverStart sha256 submission e) := by
  unfold Lifecycle.recoverStart
  split
  · exact Quiet.raise _
  · apply Quiet.get
    · intro message
      exact Quiet.raise _
    · intro w _
      refine (Quiet.liftStore _).bind fun found => ?_
      split
      · exact Quiet.raise _
      · split
        · exact Quiet.raise _
        · exact Quiet.ret _
  all_goals exact Quiet.raise _

theorem Quiet.start {registry : Registry} {submission : RunSubmission}
    (hquiet : runNeedsReconciliation version.value = false)
    (hid : logicalRunIdentity sha256 submission = runId) :
    Quiet runId version (start sha256 registry submission) := by
  refine (Quiet.liftRegistry _).bind fun plan => ?_
  refine (Quiet.liftRegistry _).bind fun _ => ?_
  apply Quiet.clock
  intro now
  have hdispatch := (Quiet.dispatch hquiet hid plan now).tryCatch
    (h := Lifecycle.recoverStart sha256 submission) Quiet.recoverStart
  refine hdispatch.bind fun stored => ?_
  exact (Quiet.liftContract _).bind fun state => Quiet.ret _

theorem Quiet.reconcile {registry : Registry} {stored : StoredRun}
    (hquiet : runNeedsReconciliation version.value = false)
    (hstored : stored.record = version.value) :
    Quiet runId version (reconcileStored sha256 registry stored) := by
  unfold reconcileStored
  dsimp only
  rw [hstored, hquiet, if_pos (by simp)]
  exact Quiet.ret stored

theorem Quiet.requireRun {address : String} : Quiet runId version (requireRun address) := by
  apply Quiet.get
  · intro message
    exact Quiet.raise _
  · intro w _
    cases current w.snapshots address with
    | none => exact Quiet.raise _
    | some found => exact Quiet.ret _

/-- Reading the run finds its snapshot. -/
theorem Quiet.requireRun_bind {f : StoredRun → Action α}
    (hf : Quiet runId version (f ⟨version.value, version.etag⟩)) :
    Quiet runId version (Lifecycle.requireRun runId >>= f) := by
  apply Quiet.get
  · intro message
    exact Quiet.raise _
  · intro w hcurrent
    rw [hcurrent]
    exact hf

theorem Quiet.cancelOnce {registry : Registry}
    (hquiet : runNeedsReconciliation version.value = false) :
    Quiet runId version (cancelOnce sha256 registry runId) := by
  apply Quiet.requireRun_bind
  dsimp only
  rw [if_pos (terminal_of_quiescent hquiet)]
  exact (Quiet.liftContract _).bind fun state => Quiet.ret _

end Runs

section Entries

variable {O : Type} {R : O → Type} {M : Type} {claims : Machine O R M} {claiming : Claiming O R}
  {sha256 : String → String} {runId : String} {version : Version RunRecord} {α β : Type}

def runOperation : Sigma (EntryAnswer R) → Option (Sigma Answer)
  | ⟨.run o, answer⟩ => some ⟨o, answer⟩
  | ⟨.claim _, _⟩ => none

/-- The runs, and the operations on them. -/
def runsOf (s : EntryWorld M × List (Sigma (EntryAnswer R))) : World × List (Sigma Answer) :=
  (s.1.runs, s.2.filterMap runOperation)

def quietEntries (R : O → Type) (M : Type) (runId : String) (version : Version RunRecord) :
    Discipline (EntryWorld M × List (Sigma (EntryAnswer R))) where
  inv s := (quietDiscipline runId version).inv (runsOf s)
  le _ _ := True
  refl _ := trivial
  trans _ _ _ _ _ := trivial

def QuietEntry (claims : Machine O R M) (runId : String) (version : Version RunRecord)
    (p : EntryAction R α) : Prop :=
  ∀ s, Safe (entryServices services claims).traced (quietEntries R M runId version)
    (fun _ _ => True) (fun _ _ => True) p s

theorem QuietEntry.bind {p : EntryAction R α} {f : α → EntryAction R β}
    (hp : QuietEntry claims runId version p) (hf : ∀ a, QuietEntry claims runId version (f a)) :
    QuietEntry claims runId version (p >>= f) :=
  fun s => (hp s).bind fun a t _ _ => hf a t

theorem QuietEntry.ret (a : α) : QuietEntry claims runId version (.ret a) := fun _ => trivial

theorem QuietEntry.liftEntry (result : Except LifecycleError α) :
    QuietEntry claims runId version (liftEntry result) := by
  cases result with
  | ok value => exact fun _ => trivial
  | error e => exact fun _ => trivial

theorem Quiet.onRuns {p : Action α} (hp : Quiet runId version p) :
    QuietEntry claims runId version (onRuns p) := by
  intro s
  have hstep : ∀ o (t : EntryWorld M × List (Sigma (EntryAnswer R))) answer t',
      (entryServices services claims).traced.step (.run o) t answer t' →
      services.traced.step o (runsOf t) answer (runsOf t') := by
    intro o t answer t' hstep
    obtain ⟨⟨hrun, -⟩, htrace⟩ := hstep
    refine ⟨hrun, ?_⟩
    show t'.2.filterMap runOperation = _
    rw [htrace, List.filterMap_append]
    rfl
  have hsafe : Safe (entryServices services claims).traced (quietEntries R M runId version)
      (fun _ _ => True) (fun e _ => ∃ e', e = id e' ∧ True) (Lifecycle.onRuns p) s :=
    Safe.embed (D := quietDiscipline runId version) (fun _ _ _ => trivial)
      (fun t (h : (quietDiscipline runId version).inv (runsOf t)) => h) (fun o t answer t' h =>
      ⟨hstep o t answer t' h, fun _ hinv _ => ⟨hinv, trivial⟩⟩) (hp (runsOf s))
  exact hsafe.weaken (fun _ _ _ _ => trivial) (fun _ _ _ _ => trivial)

/-- An operation on claims leaves the runs alone. -/
theorem quiet_claim {o : O} {s s' : EntryWorld M × List (Sigma (EntryAnswer R))} {answer : R o}
    (hinv : (quietEntries R M runId version).inv s)
    (hstep : (entryServices services claims).traced.step (.claim o) s answer s') :
    (quietEntries R M runId version).inv s' := by
  obtain ⟨⟨-, hruns⟩, htrace⟩ := hstep
  have hsame : runsOf s' = runsOf s := by
    unfold runsOf
    rw [hruns, htrace, List.filterMap_append]
    simp [runOperation]
  show (quietDiscipline runId version).inv (runsOf s')
  rw [hsame]
  exact hinv

theorem QuietEntry.onClaims {p : Prog O R RunStoreError α} :
    QuietEntry claims runId version (onClaims p) := by
  induction p with
  | ret a => exact fun _ => trivial
  | raise e => exact fun _ => trivial
  | call o next ih =>
    intro s t _ hinv answer t' hstep
    exact ⟨quiet_claim hinv hstep, trivial, ih answer t'⟩

theorem QuietEntry.cancel {registry : Registry} {label : ℕ} {idempotencyKey : String}
    (hquiet : runNeedsReconciliation version.value = false) :
    QuietEntry claims runId version
      (cancel sha256 claiming registry label runId idempotencyKey) := by
  unfold Lifecycle.cancel
  split
  · exact fun _ => trivial
  refine (Quiet.onRuns Quiet.requireRun).bind fun stored => ?_
  refine (QuietEntry.liftEntry _).bind fun _ => ?_
  refine (QuietEntry.liftEntry _).bind fun planned => ?_
  have hclaim : QuietEntry claims runId version
      (claimCancellation sha256 claiming label runId idempotencyKey planned) := by
    intro s
    refine (QuietEntry.onClaims s).tryCatch fun e t _ _ => ?_
    unfold recoverClaim
    split <;> trivial
  refine hclaim.bind fun original => ?_
  refine (QuietEntry.liftEntry _).bind fun result => ?_
  exact (Quiet.onRuns (Quiet.cancelOnce hquiet)).bind fun _ => QuietEntry.ret result

theorem QuietEntry.enter {call : EntryCall} {w : World}
    (hquiet : runNeedsReconciliation version.value = false)
    (hcurrent : current w.snapshots runId = some version)
    (hcall : call.entry.OnRun sha256 runId w) :
    QuietEntry claims runId version (enter sha256 claiming call) := by
  have hread : ∀ stored : StoredRun,
      current w.snapshots runId = some ⟨stored.revision, stored.record⟩ →
      stored.record = version.value := by
    intro stored hstored
    rw [hcurrent] at hstored
    rw [Option.some.inj hstored]
  unfold Lifecycle.enter
  cases hentry : call.entry with
  | start submission =>
    rw [hentry] at hcall
    exact (Quiet.onRuns (Quiet.start hquiet hcall)).bind fun _ => QuietEntry.ret _
  | cancel address idempotencyKey =>
    rw [hentry] at hcall
    obtain rfl : address = runId := hcall
    exact (QuietEntry.cancel hquiet).bind fun _ => QuietEntry.ret _
  | reconcile stored =>
    rw [hentry] at hcall
    exact (Quiet.onRuns (Quiet.reconcile hquiet (hread stored hcall))).bind fun _ =>
      QuietEntry.ret _
  | dispatch submission plan now =>
    rw [hentry] at hcall
    exact (Quiet.onRuns (Quiet.dispatch hquiet hcall plan now)).bind fun _ => QuietEntry.ret _
  | dispatchStored stored plan now =>
    rw [hentry] at hcall
    have hterminal : stored.record.runState = .terminal := by
      rw [hread stored hcall]
      exact terminal_of_quiescent hquiet
    exact (Quiet.onRuns (Quiet.dispatchStored hterminal plan now)).bind fun _ => QuietEntry.ret _

end Entries

section Example

/-- Claims that are always granted. -/
def grantedClaims : Claiming Empty (fun _ => Unit) where
  claimMutation _ _ _ _ result := .ret result
  modelValidateJson _ := some
    { accepted := false, runId := cancelingRun.record.runId, state := .canceled,
      operation := .cancel, resultingRunId := none }

def noClaims : Machine Empty (fun _ => Unit) Unit := ⟨fun o => o.elim⟩

/-- The example's run, canceled while it was queued. -/
def canceledRun : RunRecord :=
  (createRunRecord digest exampleSubmission).changed .terminal 1
    { outcome := some .canceled, resultsState := some .unavailable,
      cleanupState := some .confirmed, stage := some "canceled" }

def canceledWorld : EntryWorld Unit where
  runs := ⟨[⟨canceledRun.runId, some canceledRun, 0⟩], [], [], []⟩
  claims := ()

def serveEntry : (o : EntryRequest Empty) → EntryWorld Unit →
    Option (EntryAnswer (fun _ => Unit) o × EntryWorld Unit)
  | .run o, w =>
    let served := serve canceledOracle o w.runs
    some (served.1, { w with runs := served.2 })
  | .claim o, _ => o.elim

theorem entryServices_of_serveEntry (o : EntryRequest Empty) (w : EntryWorld Unit)
    (answer : EntryAnswer (fun _ => Unit) o) (w' : EntryWorld Unit)
    (h : serveEntry o w = some (answer, w')) :
    (entryServices services noClaims).step o w answer w' := by
  cases o with
  | run o =>
    obtain ⟨rfl, rfl⟩ := Prod.mk.inj (Option.some.inj h)
    exact ⟨.inl ⟨canceledOracle, rfl⟩, rfl⟩
  | claim o => exact o.elim

abbrev EntryEvent := Event (EntryRequest Empty) (EntryAnswer fun _ => Unit) LifecycleError
  EntryOutcome EntryCall

/-- Starts of the example's submission and cancellations of its run. -/
def admitsAgain (_ : Config (EntryRequest Empty) (EntryAnswer fun _ => Unit) LifecycleError
    EntryOutcome EntryCall (EntryWorld Unit)) : EntryEvent → Bool
  | .issued _ call => decide (call.entry = .start exampleSubmission ∨
    call.entry = .cancel canceledRun.runId "cancel-1")
  | _ => true

theorem onlyOnRun_of_admitsAgain
    (cfg : Config (EntryRequest Empty) (EntryAnswer fun _ => Unit) LifecycleError EntryOutcome
      EntryCall (EntryWorld Unit)) (event : EntryEvent) (_ : ∀ j, 2 ≤ j → cfg.pool j = none)
    (h : admitsAgain cfg event = true) : OnlyOnRun digest canceledRun.runId cfg event := by
  cases event with
  | issued i call =>
    show call.entry.OnRun _ _ _
    rcases of_decide_eq_true h with hstart | hcancel
    · rw [hstart]
      rfl
    · rw [hcancel]
      rfl
  | performed i call o answer => trivial
  | finished i call out => trivial
  | crashed i => trivial

/-- A start and a cancellation have been answered. -/
def Answered (events : List EntryEvent) : Prop :=
  events.any (fun
    | .finished _ _ (.ok (.status _ .canceled)) => true
    | _ => false) = true ∧
  events.any (fun
    | .finished _ _ (.ok (.mutation _)) => true
    | _ => false) = true

instance : DecidablePred Answered := fun _ => inferInstanceAs (Decidable (_ ∧ _))

end Example

end Dander.Lifecycle
