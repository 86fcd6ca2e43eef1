import Dander.RunLifecycleSafety
import Mathlib.Data.Set.Function

/-!
# Replayed attempts

An attempt record is rebuilt from the stored snapshot whenever a dispatch is repeated. A run
has one queued snapshot in its whole history, so every dispatcher and reconciler that
reaches the backend rebuilds the same record, whatever the interleaving and the crashes.
-/
namespace Dander.Lifecycle

open Interleaving ObjectStore Orchestration

section Property

/-- The requests of a trace, without their answers. -/
def requests (trace : List (Sigma Answer)) : List Request := trace.map Sigma.fst

/-- What a whole run of dispatchers and reconcilers asked of the store and the backend. -/
structure Replayed (plans : Set ExecutionPlan) (asked : List Request) : Prop where
  identical : ∀ first second, .appendAttempt first ∈ asked → .appendAttempt second ∈ asked →
    first.runId = second.runId → first.attemptNumber = second.attemptNumber → first = second
  recorded : ∀ plan runId attemptId trigger, .submitOrAdopt plan runId attemptId trigger ∈ asked →
    ∃ attempt, .appendAttempt attempt ∈ asked ∧ attempt.runId = runId ∧
      attempt.attemptId = attemptId ∧ attempt.trigger = trigger ∧
      attempt.planRevision = plan.revision ∧ attempt.attemptNumber ≤ plan.maxAttempts
  bounded : ∀ attempt, .appendAttempt attempt ∈ asked → ∀ plan ∈ plans,
    plan.revision = attempt.planRevision → attempt.attemptNumber ≤ plan.maxAttempts
  single : ∀ plan plan' runId attemptId attemptId' trigger trigger',
    .submitOrAdopt plan runId attemptId trigger ∈ asked →
    .submitOrAdopt plan' runId attemptId' trigger' ∈ asked →
    attemptId = attemptId' ∧ trigger = trigger'

end Property

section Invariant

/-- A snapshot as the lifecycle writes it: no run is ever marked as retrying, and a queued
run has not been attempted. -/
structure Plain (record : RunRecord) : Prop where
  retrying : record.runState ≠ .retrying
  queued : record.runState = .queued → record.attemptCount = 0

/-- A run is queued in one snapshot only. -/
structure QueuedOnce (w : World) : Prop where
  writes : ∀ write ∈ w.snapshots, ∃ record, write.value = some record ∧
    record.runId = write.name ∧ Plain record
  once : ∀ first ∈ w.snapshots, ∀ second ∈ w.snapshots, first.name = second.name →
    ∀ record record', first.value = some record → second.value = some record' →
      record.runState = .queued → record'.runState = .queued → record = record'

/-- The run was stored as queued with this record. -/
def WasQueued (w : World) (record : RunRecord) : Prop :=
  record.runState = .queued ∧ ∃ write ∈ w.snapshots, write.name = record.runId ∧
    write.value = some record

/-- The first attempt of a queued run, as its dispatcher records it. -/
def firstAttempt (record : RunRecord) (plan : ExecutionPlan) (attemptId : String) :
    AttemptRecord :=
  ⟨record.runId, attemptId, 1, plan.planId, plan.revision, plan.backendId, record.trigger,
    record.updatedAt⟩

/-- What a dispatcher knows once it has decided to launch a run. -/
structure Launches (sha256 : String → String) (plans : Set ExecutionPlan) (w : World)
    (record : RunRecord) (plan : ExecutionPlan) (attemptId : String) : Prop where
  queued : WasQueued w record
  known : plan ∈ plans
  selected : record.planSelection = plan.selection
  allowed : 1 ≤ plan.maxAttempts
  identity : attemptIdentity sha256 record.runId 1 = .ok attemptId

/-- What a worker has to know when it makes a request, given the requests made before. -/
def Asked (sha256 : String → String) (plans : Set ExecutionPlan) (w : World)
    (asked : List Request) : Request → Prop
  | .claim record => record.runState = .queued ∧ record.attemptCount = 0
  | .save _ record => record.runState ∉ [HostedRunState.queued, .retrying]
  | .appendAttempt attempt => ∃ record plan, Launches sha256 plans w record plan attempt.attemptId ∧
    attempt = firstAttempt record plan attempt.attemptId
  | .submitOrAdopt plan runId attemptId trigger => ∃ record,
    Launches sha256 plans w record plan attemptId ∧ runId = record.runId ∧
      trigger = record.trigger ∧ .appendAttempt (firstAttempt record plan attemptId) ∈ asked
  | _ => True

abbrev Observed := World × List (Sigma Answer)

structure Replaying (sha256 : String → String) (plans : Set ExecutionPlan) (s : Observed) :
    Prop where
  queuedOnce : QueuedOnce s.1
  asked : ∀ o ∈ requests s.2, Asked sha256 plans s.1 (requests s.2) o

/-- Snapshots and requests are only added. -/
structure Extends (s later : Observed) : Prop where
  snapshots : s.1.snapshots <:+ later.1.snapshots
  trace : s.2 <+: later.2

theorem Extends.rfl' (s : Observed) : Extends s s := ⟨List.suffix_refl _, List.prefix_refl _⟩

theorem Extends.trans {a b c : Observed} (hab : Extends a b) (hbc : Extends b c) : Extends a c :=
  ⟨hab.snapshots.trans hbc.snapshots, hab.trace.trans hbc.trace⟩

def replayDiscipline (sha256 : String → String) (plans : Set ExecutionPlan) :
    Discipline Observed where
  inv := Replaying sha256 plans
  le := Extends
  refl := Extends.rfl'
  trans _ _ _ := Extends.trans

variable {sha256 : String → String} {plans : Set ExecutionPlan} {w later : World}
  {s t : Observed}

theorem WasQueued.mono {record : RunRecord} (h : WasQueued w record)
    (hle : w.snapshots <:+ later.snapshots) : WasQueued later record := by
  obtain ⟨hqueued, write, hmem, hwrite⟩ := h
  exact ⟨hqueued, write, hle.subset hmem, hwrite⟩

theorem Launches.mono {record : RunRecord} {plan : ExecutionPlan} {attemptId : String}
    (h : Launches sha256 plans w record plan attemptId)
    (hle : w.snapshots <:+ later.snapshots) :
    Launches sha256 plans later record plan attemptId :=
  { h with queued := h.queued.mono hle }

theorem Asked.mono {asked asked' : List Request} {o : Request}
    (h : Asked sha256 plans w asked o) (hle : w.snapshots <:+ later.snapshots)
    (hasked : asked ⊆ asked') : Asked sha256 plans later asked' o := by
  cases o with
  | appendAttempt attempt =>
    obtain ⟨record, plan, hlaunches, hattempt⟩ := h
    exact ⟨record, plan, hlaunches.mono hle, hattempt⟩
  | submitOrAdopt plan runId attemptId trigger =>
    obtain ⟨record, hlaunches, hrun, htrigger, happended⟩ := h
    exact ⟨record, hlaunches.mono hle, hrun, htrigger, hasked happended⟩
  | claim record => exact h
  | save stored record => exact h
  | get runId => trivial
  | observe plan handle => trivial
  | cancel plan handle => trivial
  | clock => trivial

/-- Two records under which one run was queued are the same. -/
theorem QueuedOnce.same (hinv : QueuedOnce w) {record record' : RunRecord}
    (h : WasQueued w record) (h' : WasQueued w record') (hrun : record.runId = record'.runId) :
    record = record' := by
  obtain ⟨hqueued, write, hmem, hname, hvalue⟩ := h
  obtain ⟨hqueued', write', hmem', hname', hvalue'⟩ := h'
  have hnames : write.name = write'.name := by rw [hname, hname', hrun]
  exact hinv.once write hmem write' hmem' hnames record record' hvalue hvalue' hqueued hqueued'

/-- Two dispatchers that launch one run agree on the attempt. -/
theorem QueuedOnce.agree (hinv : QueuedOnce w) (hplans : Set.InjOn ExecutionPlan.revision plans)
    {record record' : RunRecord} {plan plan' : ExecutionPlan} {attemptId attemptId' : String}
    (h : Launches sha256 plans w record plan attemptId)
    (h' : Launches sha256 plans w record' plan' attemptId')
    (hrun : record.runId = record'.runId) :
    record = record' ∧ plan = plan' ∧ attemptId = attemptId' := by
  have hrecord := hinv.same h.queued h'.queued hrun
  subst hrecord
  have hrevision : plan.revision = plan'.revision := by
    have hselection := h.selected.symm.trans h'.selected
    exact congrArg PlanSelection.planRevision hselection
  have hidentity := h.identity.symm.trans h'.identity
  exact ⟨rfl, hplans h.known h'.known hrevision, Except.ok.inj hidentity⟩

/-- A trace of justified requests replays its attempts. -/
theorem Replaying.replayed (hinv : Replaying sha256 plans s)
    (hplans : Set.InjOn ExecutionPlan.revision plans) : Replayed plans (requests s.2) := by
  constructor
  · intro first second hfirst hsecond hrun _
    obtain ⟨record, plan, hlaunches, heq⟩ := hinv.asked _ hfirst
    obtain ⟨record', plan', hlaunches', heq'⟩ := hinv.asked _ hsecond
    have hrecords : record.runId = record'.runId := by
      rw [heq, heq'] at hrun
      exact hrun
    obtain ⟨hrecord, hplan, hattempt⟩ := hinv.queuedOnce.agree hplans hlaunches hlaunches' hrecords
    rw [heq, heq', hrecord, hplan, hattempt]
  · intro plan runId attemptId trigger hmem
    obtain ⟨record, hlaunches, hrun, htrigger, happended⟩ := hinv.asked _ hmem
    exact ⟨_, happended, hrun.symm, rfl, htrigger.symm, rfl, hlaunches.allowed⟩
  · intro attempt hmem plan hplan hrevision
    obtain ⟨record, plan', hlaunches, heq⟩ := hinv.asked _ hmem
    rw [heq] at hrevision ⊢
    have hsame : plan = plan' := hplans hplan hlaunches.known hrevision
    rw [hsame]
    exact hlaunches.allowed
  · intro plan plan' runId attemptId attemptId' trigger trigger' hmem hmem'
    obtain ⟨record, hlaunches, hrun, htrigger, -⟩ := hinv.asked _ hmem
    obtain ⟨record', hlaunches', hrun', htrigger', -⟩ := hinv.asked _ hmem'
    obtain ⟨hrecord, -, hattempt⟩ :=
      hinv.queuedOnce.agree hplans hlaunches hlaunches' (hrun.symm.trans hrun')
    rw [htrigger, htrigger', hrecord]
    exact ⟨hattempt, rfl⟩

end Invariant

section Steps

variable {sha256 : String → String} {plans : Set ExecutionPlan} {w : World}

theorem QueuedOnce.value (hinv : QueuedOnce w) {write : Write String RunRecord}
    (hmem : write ∈ w.snapshots) {record : RunRecord} (hvalue : write.value = some record) :
    record.runId = write.name ∧ Plain record := by
  obtain ⟨other, hother, hname, hplain⟩ := hinv.writes write hmem
  rw [hvalue] at hother
  obtain rfl := Option.some.inj hother
  exact ⟨hname, hplain⟩

/-- Writing a snapshot that is not queued, or the first one of its run. -/
theorem QueuedOnce.write (hinv : QueuedOnce w) {record : RunRecord} (hplain : Plain record)
    (hfirst : record.runState = .queued → ∀ write ∈ w.snapshots, write.name ≠ record.runId) :
    QueuedOnce { w with snapshots := ⟨record.runId, some record, 0⟩ :: w.snapshots } := by
  constructor
  · intro write hmem
    rcases List.mem_cons.mp hmem with rfl | hold
    · exact ⟨record, rfl, rfl, hplain⟩
    · exact hinv.writes write hold
  · intro first hmem second hmem' hname r r' hvalue hvalue' hqueued hqueued'
    rcases List.mem_cons.mp hmem with rfl | hold
    · obtain rfl := Option.some.inj hvalue
      rcases List.mem_cons.mp hmem' with rfl | hold'
      · exact Option.some.inj hvalue'
      · exact (hfirst hqueued second hold' hname.symm).elim
    · rcases List.mem_cons.mp hmem' with rfl | hold'
      · obtain rfl := Option.some.inj hvalue'
        exact (hfirst hqueued' first hold hname).elim
      · exact hinv.once first hold second hold' hname r r' hvalue hvalue' hqueued hqueued'

/-- Snapshots are never removed, so a run without a current one was never written. -/
theorem QueuedOnce.unwritten (hinv : QueuedOnce w) {runId : String}
    (h : current w.snapshots runId = none) : ∀ write ∈ w.snapshots, write.name ≠ runId := by
  have hvalues : ∀ write ∈ w.snapshots, write.value ≠ none := by
    intro write hmem hnone
    obtain ⟨record, hvalue, -⟩ := hinv.writes write hmem
    rw [hnone] at hvalue
    cases hvalue
  generalize w.snapshots = history at h hvalues
  induction history with
  | nil => simp
  | cons last older ih =>
    by_cases hname : last.name = runId
    · subst hname
      rw [current_cons_self, Option.map_eq_none_iff] at h
      exact (hvalues last List.mem_cons_self h).elim
    · rw [current_cons_of_ne hname] at h
      intro write hmem
      rcases List.mem_cons.mp hmem with rfl | hold
      · exact hname
      · exact ih h (fun other hother => hvalues other (List.mem_cons_of_mem _ hother)) write hold

theorem claimed_queuedOnce (hinv : QueuedOnce w) {record : RunRecord}
    (hqueued : record.runState = .queued) (hcount : record.attemptCount = 0) :
    QueuedOnce (w.claimed record).2 ∧ w.snapshots <:+ (w.claimed record).2.snapshots := by
  unfold World.claimed
  split
  next hnone =>
    have hplain : Plain record := ⟨by simp [hqueued], fun _ => hcount⟩
    exact ⟨hinv.write hplain (fun _ => hinv.unwritten hnone), List.suffix_cons _ _⟩
  · split
    · exact ⟨hinv, List.suffix_refl _⟩
    · split <;> exact ⟨hinv, List.suffix_refl _⟩

theorem save_queuedOnce (hinv : QueuedOnce w) {stored : StoredRun} {record : RunRecord}
    (hstate : record.runState ∉ [HostedRunState.queued, .retrying]) :
    QueuedOnce (w.save stored record).2 ∧ w.snapshots <:+ (w.save stored record).2.snapshots := by
  have hnot : record.runState ≠ .queued ∧ record.runState ≠ .retrying := by
    simpa using hstate
  unfold World.save
  split
  · exact ⟨hinv, List.suffix_refl _⟩
  · split
    · have hplain : Plain record := ⟨hnot.2, fun hqueued => (hnot.1 hqueued).elim⟩
      exact ⟨hinv.write hplain (fun hqueued => (hnot.1 hqueued).elim), List.suffix_cons _ _⟩
    · exact ⟨hinv, List.suffix_refl _⟩

/-- The other requests leave the snapshots alone. -/
theorem QueuedOnce.of_snapshots (hinv : QueuedOnce w) {later : World}
    (h : later.snapshots = w.snapshots) :
    QueuedOnce later ∧ w.snapshots <:+ later.snapshots := by
  refine ⟨⟨?_, ?_⟩, ?_⟩
  · rw [h]
    exact hinv.writes
  · rw [h]
    exact hinv.once
  · rw [h]

theorem serve_queuedOnce (hinv : QueuedOnce w) {asked : List Request} {o : Request}
    (hasked : Asked sha256 plans w asked o) (oracle : Oracle) :
    QueuedOnce (serve oracle o w).2 ∧ w.snapshots <:+ (serve oracle o w).2.snapshots := by
  cases o with
  | claim record => exact claimed_queuedOnce hinv hasked.1 hasked.2
  | save stored record => exact save_queuedOnce hinv hasked
  | get runId => exact ⟨hinv, List.suffix_refl _⟩
  | appendAttempt attempt =>
    apply hinv.of_snapshots
    simp only [serve, World.appendAttempt]
    split
    · rfl
    · split <;> rfl
  | submitOrAdopt plan runId attemptId trigger =>
    apply hinv.of_snapshots
    simp only [serve, World.submitOrAdopt]
    split <;> rfl
  | observe plan handle =>
    apply hinv.of_snapshots
    simp only [serve, World.observe]
    split <;> rfl
  | cancel plan handle => exact ⟨hinv, List.suffix_refl _⟩
  | clock => exact ⟨hinv, List.suffix_refl _⟩

/-- A request that its worker can justify keeps the whole trace justified. -/
theorem Replaying.next {s t : Observed} (hinv : Replaying sha256 plans s) {o : Request}
    {answer : Answer o} (hasked : Asked sha256 plans s.1 (requests s.2) o)
    (hworld : QueuedOnce t.1 ∧ s.1.snapshots <:+ t.1.snapshots)
    (htrace : t.2 = s.2 ++ [⟨o, answer⟩]) : Replaying sha256 plans t ∧ Extends s t := by
  have hprefix : s.2 <+: t.2 := by
    rw [htrace]
    exact List.prefix_append _ _
  have hsubset : requests s.2 ⊆ requests t.2 := List.map_subset _ hprefix.subset
  refine ⟨⟨hworld.1, ?_⟩, hworld.2, hprefix⟩
  intro other hmem
  have hcases : other ∈ requests s.2 ∨ other = o := by
    simpa [requests, htrace] using hmem
  rcases hcases with hold | rfl
  · exact (hinv.asked other hold).mono hworld.2 hsubset
  · exact hasked.mono hworld.2 hsubset

end Steps

section Programs

variable {sha256 : String → String} {plans : Set ExecutionPlan} {α β : Type} {s : Observed}

/-- Every request of the program is justified when it is made; its end promises nothing. -/
def Replays {α : Type} (sha256 : String → String) (plans : Set ExecutionPlan) (p : Action α)
    (s : Observed) : Prop :=
  Safe services.traced (replayDiscipline sha256 plans) (fun _ _ => True) (fun _ _ => True) p s

/-- One request: what must be known of it, and how the worker goes on. -/
theorem replays_request {o : Request} {next : Answer o → Action α}
    (hasked : ∀ t, Extends s t → Replaying sha256 plans t →
      Asked sha256 plans t.1 (requests t.2) o)
    (hfailed : ∀ answer t, Extends s t → Failed o answer → Replays sha256 plans (next answer) t)
    (hserved : ∀ t t' oracle, Extends s t → Replaying sha256 plans t → Extends t t' →
      t'.1 = (serve oracle o t.1).2 → o ∈ requests t'.2 →
      Replays sha256 plans (next (serve oracle o t.1).1) t') :
    Replays sha256 plans (.call o next) s := by
  rintro t ht hinv answer t' ⟨hstep, htrace⟩
  have hask := hasked t ht hinv
  have hmem : o ∈ requests t'.2 := by simp [requests, htrace]
  rcases hstep with ⟨oracle, hanswer⟩ | ⟨hfail, hworld⟩
  · have hserve := serve_queuedOnce hinv.queuedOnce hask oracle
    have hnext := fun hle' => hserved t t' oracle ht hinv hle'
    rw [hanswer] at hserve hnext
    obtain ⟨hinv', hle'⟩ := hinv.next hask hserve htrace
    exact ⟨hinv', hle', hnext hle' rfl hmem⟩
  · have hserve : QueuedOnce t'.1 ∧ t.1.snapshots <:+ t'.1.snapshots := by
      rcases hworld with hsame | ⟨oracle, hdone⟩
      · exact hinv.queuedOnce.of_snapshots (by rw [hsame])
      · rw [hdone]
        exact serve_queuedOnce hinv.queuedOnce hask oracle
    obtain ⟨hinv', hle'⟩ := hinv.next hask hserve htrace
    exact ⟨hinv', hle', hfailed answer t' (ht.trans hle') hfail⟩

/-- The last request of a program. -/
theorem replays_last {o : Request} {next : Answer o → Action α}
    (hasked : ∀ t, Extends s t → Replaying sha256 plans t →
      Asked sha256 plans t.1 (requests t.2) o)
    (hnext : ∀ answer t, Replays sha256 plans (next answer) t) :
    Replays sha256 plans (.call o next) s :=
  replays_request hasked (fun answer t _ _ => hnext answer t)
    (fun _ t' _ _ _ _ _ _ => hnext _ t')

theorem replays_bind {p : Action α} {f : α → Action β} (hp : Replays sha256 plans p s)
    (hf : ∀ a t, Extends s t → Replays sha256 plans (f a) t) :
    Replays sha256 plans (p >>= f) s :=
  Safe.bind hp (fun a t ht _ => hf a t ht)

theorem replays_liftStore {result : Except RunStoreError α} :
    Replays sha256 plans (liftStore result) s := by
  cases result <;> trivial

theorem replays_liftContract {result : Except ContractError α} {f : α → Action β}
    (hf : ∀ a, result = .ok a → Replays sha256 plans (f a) s) :
    Replays sha256 plans (liftContract result >>= f) s := by
  cases result with
  | ok a => exact hf a rfl
  | error e => trivial

theorem replays_liftRegistry {result : Except LifecycleError α} {f : α → Action β}
    (hf : ∀ a, result = .ok a → Replays sha256 plans (f a) s) :
    Replays sha256 plans (liftRegistry result >>= f) s := by
  cases result with
  | ok a => exact hf a rfl
  | error e => trivial

/-- A snapshot of the store's history. -/
def Written (w : World) (record : RunRecord) : Prop :=
  ∃ write ∈ w.snapshots, write.name = record.runId ∧ write.value = some record

theorem Written.mono {w later : World} {record : RunRecord} (h : Written w record)
    (hle : w.snapshots <:+ later.snapshots) : Written later record := by
  obtain ⟨write, hmem, hwrite⟩ := h
  exact ⟨write, hle.subset hmem, hwrite⟩

theorem written_of_genuine {w : World} {stored : StoredRun} (h : Genuine w stored) :
    Written w stored.record := by
  obtain ⟨author, hrecorded⟩ := h
  exact ⟨_, mem_of_recorded hrecorded, rfl, rfl⟩

theorem QueuedOnce.written_of_current {w : World} (hinv : QueuedOnce w) {runId : String}
    {version : Version RunRecord} (h : current w.snapshots runId = some version) :
    Written w version.value := by
  obtain ⟨author, hrecorded⟩ := recorded_of_current h
  have hmem := mem_of_recorded hrecorded
  have hname := (hinv.value hmem rfl).1
  exact ⟨_, hmem, hname.symm, rfl⟩

theorem replays_submitAttempt {stored : StoredRun} {plan : ExecutionPlan} {now : ℤ}
    {attemptId : String} (hlaunches : Launches sha256 plans s.1 stored.record plan attemptId) :
    Replays sha256 plans (submitAttempt sha256 stored plan now 1 attemptId) s := by
  apply replays_request
  · intro t ht _
    exact ⟨stored.record, plan, hlaunches.mono ht.snapshots, rfl⟩
  · rintro answer t _ ⟨message, rfl⟩
    trivial
  · intro t t' oracle ht _ ht' _ happended
    have hlater := hlaunches.mono (ht.trans ht').snapshots
    refine replays_bind replays_liftStore ?_
    intro _ u hu
    apply replays_last
    · intro v hv _
      have hmem := List.map_subset Sigma.fst (hu.trans hv).trace.subset happended
      exact ⟨stored.record, hlater.mono (hu.trans hv).snapshots, rfl, rfl, hmem⟩
    · intro answer v
      cases answer with
      | none => trivial
      | some handle =>
        simp only
        split
        · trivial
        · apply replays_liftContract
          intro updated hupdated
          obtain rfl := transitionRun_eq_ok hupdated
          apply replays_last
          · intro x _ _
            simp [Asked, RunRecord.changed]
          · intro saved x
            exact replays_liftStore

theorem replays_dispatchStoredRunAttempt {stored : StoredRun} {plan : ExecutionPlan} {now : ℤ}
    (hinv : QueuedOnce s.1) (hwritten : Written s.1 stored.record) (hplan : plan ∈ plans) :
    Replays sha256 plans (dispatchStoredRunAttempt sha256 stored plan now) s := by
  simp only [dispatchStoredRunAttempt]
  split
  · trivial
  next hselected =>
    split
    · trivial
    · split
      · trivial
      next hstate =>
        obtain ⟨write, hmem, hname, hvalue⟩ := hwritten
        have hplain := (hinv.value hmem hvalue).2
        have hqueued : stored.record.runState = .queued := by
          simp only [List.mem_cons, List.not_mem_nil, or_false, not_not] at hstate
          exact hstate.resolve_right hplain.retrying
        have hcount := hplain.queued hqueued
        split
        · trivial
        next hbound =>
          rw [hcount] at hbound ⊢
          apply replays_liftContract
          intro attemptId hattempt
          apply replays_submitAttempt
          exact ⟨⟨hqueued, write, hmem, hname, hvalue⟩, hplan, not_not.mp hselected,
            by omega, hattempt⟩

/-- A claim answers with a snapshot of the history. -/
theorem written_of_claimed {w : World} (hinv : QueuedOnce w) {record : RunRecord}
    {claim : RunClaim} (h : (w.claimed record).1 = .ok claim) :
    Written (w.claimed record).2 claim.stored.record := by
  unfold World.claimed at h ⊢
  split at h
  · cases h
    exact ⟨_, List.mem_cons_self, rfl, rfl⟩
  next version hcurrent =>
    split at h
    · cases h
    next hsame =>
      split at h
      · cases h
      next hsubmission =>
        cases h
        simp only [if_neg hsame, if_neg hsubmission]
        exact hinv.written_of_current hcurrent

theorem replays_dispatchRunAttempt {submission : RunSubmission} {plan : ExecutionPlan} {now : ℤ}
    (hplan : plan ∈ plans) :
    Replays sha256 plans (dispatchRunAttempt sha256 submission plan now) s := by
  apply replays_liftContract
  intro _ _
  apply replays_request
  · intros
    exact ⟨rfl, rfl⟩
  · rintro answer t _ ⟨message, rfl⟩
    trivial
  · intro t t' oracle ht hinv ht' hworld _
    cases hanswer : (serve oracle (.claim (createRunRecord sha256 submission)) t.1).1 with
    | error e => trivial
    | ok claim =>
      have hwritten : Written t'.1 claim.stored.record := by
        rw [hworld]
        exact written_of_claimed hinv.queuedOnce hanswer
      have honce : QueuedOnce t'.1 := by
        rw [hworld]
        exact (claimed_queuedOnce hinv.queuedOnce rfl rfl).1
      simp only [liftStore, Prog.ret_bind]
      split
      · trivial
      · exact replays_dispatchStoredRunAttempt honce hwritten hplan

/-- What an observation leads to is neither queued nor retrying. -/
theorem observedRecord_state {record updated : RunRecord} {observation : BackendObservation}
    (h : observedRecord sha256 record observation = .ok (some updated)) :
    updated.runState ∉ [HostedRunState.queued, .retrying] := by
  obtain ⟨-, rfl⟩ | ⟨state, rfl | rfl, rfl⟩ := observedRecord_cases h <;> simp [RunRecord.changed]

theorem replays_observeStored {stored : StoredRun} {plan : ExecutionPlan}
    {handle : BackendHandle} :
    Replays sha256 plans (observeStored sha256 stored plan handle) s := by
  apply replays_last
  · intros
    trivial
  · intro observed t
    cases observed with
    | none => trivial
    | some observation =>
      apply replays_liftContract
      intro updated hupdated
      cases updated with
      | none => trivial
      | some updated =>
        simp only
        split
        · trivial
        · apply replays_last
          · intro u _ _
            exact observedRecord_state hupdated
          · intro saved u
            exact replays_liftStore

/-- A registered plan is found in its registry. -/
theorem Registry.mem_of_select {registry : Registry} {record : RunRecord} {plan : ExecutionPlan}
    (h : registry.select record = .ok plan) : plan ∈ registry.plans := by
  obtain ⟨found, hforRun, hrest⟩ := Execution.bind_eq_ok h
  obtain ⟨_, -, hsame⟩ := Execution.bind_eq_ok hrest
  cases hsame
  obtain ⟨revised, hrequire, hcheck⟩ := Execution.bind_eq_ok hforRun
  obtain ⟨-, hret⟩ := Execution.guard_eq_ok hcheck
  cases hret
  unfold Registry.requireRevision at hrequire
  split at hrequire
  next hfind =>
    cases hrequire
    exact List.mem_of_find?_eq_some hfind
  · cases hrequire

theorem replays_reconcileStored {registry : Registry} {stored : StoredRun}
    (hwritten : Written s.1 stored.record) (hregistry : ∀ plan ∈ registry.plans, plan ∈ plans) :
    Replays sha256 plans (reconcileStored sha256 registry stored) s := by
  simp only [reconcileStored]
  split
  · trivial
  · apply replays_liftRegistry
    intro plan hselect
    have hplan := hregistry plan (Registry.mem_of_select hselect)
    split
    · apply replays_request
      · intros
        trivial
      · rintro answer t _ ⟨⟩
      · intro t t' oracle ht hinv ht' hworld _
        have honce : QueuedOnce t'.1 := by
          rw [hworld]
          exact hinv.queuedOnce
        exact replays_dispatchStoredRunAttempt honce
          (hwritten.mono (ht.trans ht').snapshots) hplan
    · split
      · split <;> trivial
      · split
        · apply replays_last
          · intros
            trivial
          · intro canceled t
            cases canceled with
            | none => trivial
            | some _ => exact replays_observeStored
        · exact replays_observeStored

theorem replays_saveCancellation {stored : StoredRun} {record : RunRecord}
    (hstate : record.runState ∉ [HostedRunState.queued, .retrying]) :
    Replays sha256 plans (saveCancellation stored record) s := by
  apply replays_last
  · intros
    exact hstate
  · intro saved t
    match saved with
    | .ok stored => trivial
    | .error (.conflict _) => trivial
    | .error (.idempotencyConflict _) => trivial
    | .error (.corruption _) => trivial
    | .error (.failure _) => trivial

theorem replays_requireRun {runId : String} : Replays sha256 plans (requireRun runId) s := by
  apply replays_last
  · intros
    trivial
  · intro found t
    match found with
    | .error _ => trivial
    | .ok none => trivial
    | .ok (some stored) => trivial

theorem replays_markCanceling {stored : StoredRun} :
    Replays sha256 plans (markCanceling sha256 stored) s := by
  unfold markCanceling
  split
  · trivial
  · apply replays_last
    · intros
      trivial
    · intro now t
      apply replays_liftContract
      intro canceling hcanceling
      obtain rfl := transitionRun_eq_ok hcanceling
      apply replays_saveCancellation
      simp [RunRecord.changed]

theorem replays_cancelOnce {registry : Registry} {runId : String} :
    Replays sha256 plans (cancelOnce sha256 registry runId) s := by
  refine replays_bind replays_requireRun ?_
  intro stored t _
  simp only
  split
  · apply replays_liftContract
    intros
    trivial
  · split
    · apply replays_last
      · intros
        trivial
      · intro now u
        apply replays_liftContract
        intro canceled hcanceled
        obtain rfl := transitionRun_eq_ok hcanceled
        apply replays_bind
        · apply replays_saveCancellation
          simp [RunRecord.changed]
        · intro saved v _
          apply replays_liftContract
          intros
          trivial
    · split
      · trivial
      · apply replays_bind replays_markCanceling
        intro marked u _
        apply replays_liftRegistry
        intro plan _
        split
        · trivial
        · apply replays_last
          · intros
            trivial
          · intro canceled v
            cases canceled <;> trivial

end Programs

section Runs

/-- Every plan a call names or finds registered in its process. -/
def Call.plans (call : Call) : List ExecutionPlan :=
  match call.work with
  | .dispatch _ plan _ => plan :: call.registry.plans
  | .dispatchStored _ plan _ => plan :: call.registry.plans
  | .reconcile _ => call.registry.plans
  | .cancel _ => call.registry.plans

/-- Workers are given snapshots that came from the store, and plans of the deployment. -/
def AdmittedWith (plans : Set ExecutionPlan) (cfg : LifecycleConfig) (event : LifecycleEvent) :
    Prop :=
  Admitted cfg event ∧ ∀ i call, event = .issued i call → ∀ plan ∈ call.plans, plan ∈ plans

variable {sha256 : String → String} {plans : Set ExecutionPlan} {events : List LifecycleEvent}
  {cfg : LifecycleConfig}

theorem replays_perform {i : ℕ} {call : Call} {s : Observed} {pool}
    (h : AdmittedWith plans ⟨s.1, pool⟩ (.issued i call)) (hinv : Replaying sha256 plans s) :
    Replays sha256 plans (perform sha256 call) s := by
  obtain ⟨hadmitted, hplans⟩ := h
  replace hplans := hplans i call rfl
  obtain ⟨registry, work⟩ := call
  cases work with
  | dispatch submission plan now =>
    have hplan : plan ∈ plans := hplans plan List.mem_cons_self
    exact replays_bind (replays_dispatchRunAttempt hplan) (fun _ _ _ => trivial)
  | dispatchStored stored plan now =>
    have hplan : plan ∈ plans := hplans plan List.mem_cons_self
    have hwritten : Written s.1 stored.record := written_of_genuine hadmitted
    exact replays_bind (replays_dispatchStoredRunAttempt hinv.queuedOnce hwritten hplan)
      (fun _ _ _ => trivial)
  | reconcile stored =>
    have hwritten : Written s.1 stored.record := written_of_genuine hadmitted
    exact replays_bind (replays_reconcileStored hwritten hplans) (fun _ _ _ => trivial)
  | cancel runId => exact replays_bind replays_cancelOnce (fun _ _ _ => trivial)

/-- In every interleaving, with any crashes and failed calls, the attempt requests of a run
replay one attempt. Plans are identified by the digest of their contents. -/
theorem attempts_are_replayed (hplans : Set.InjOn ExecutionPlan.revision plans)
    (run : Run services (perform sha256) (AdmittedWith plans) (Config.start World.empty)
      events cfg) :
    Replayed plans (requests (events.filterMap Event.operation)) := by
  have hstart : Replaying sha256 plans (World.empty, []) :=
    ⟨⟨by simp [World.empty], by simp [World.empty]⟩, by simp [requests]⟩
  have hstable : ∀ {α : Type} (_ : Call),
      Stable (replayDiscipline sha256 plans) (fun (_ : α) (_ : Observed) => True) := by
    intro α _ a s t _ _
    trivial
  have hsafe := run.traced.poolSafe (D := replayDiscipline sha256 plans)
    (fun c => hstable c) (fun c => hstable c)
    (fun cfg i c h hinv => replays_perform h hinv) (PoolSafe.start hstart)
  exact hsafe.1.1.replayed hplans

/-- A run of the example that was dispatched, with the one execution that its crashed and its
second dispatcher share. -/
def RunningOnce (w : World) : Prop :=
  w.executions = [⟨cancelingRun.record.runId, "attempt-1-7a064ea9c221979af618", ⟨"b", "x"⟩⟩] ∧
    ∃ version ∈ current w.snapshots cancelingRun.record.runId, version.value.runState = .running

instance : DecidablePred RunningOnce := fun w =>
  inferInstanceAs (Decidable (_ ∧ ∃ version ∈ current w.snapshots cancelingRun.record.runId, _))

/-- A dispatcher that crashes after its submission, and the one that repeats it. -/
theorem attempts_are_replayed_after_crash :
    ∃ events cfg,
      Run services (perform digest) (AdmittedWith {examplePlan}) (Config.start World.empty)
        events cfg ∧
      RunningOnce cfg.state ∧
      Replayed {examplePlan} (requests (events.filterMap Event.operation)) := by
  have hplay : (play (fun o w => some (serve canceledOracle o w)) (perform digest)
      (fun cfg call => admitsGenuine cfg call && call.plans.all (fun plan => plan = examplePlan))
      (Config.start World.empty)
      [.issue 0 exampleDispatch, .exec 0, .exec 0, .exec 0, .crash 0,
        .issue 1 exampleDispatch, .exec 1, .exec 1, .exec 1, .exec 1, .finish 1]).any
      (fun last => decide (RunningOnce last.state)) = true := by decide +kernel
  have hguard : ∀ (cfg : LifecycleConfig) (event : LifecycleEvent),
      (∀ i call, event = .issued i call → (admitsGenuine cfg call &&
        call.plans.all (fun plan => plan = examplePlan)) = true) →
      AdmittedWith {examplePlan} cfg event := by
    intro cfg event hadmits
    constructor
    · apply admitted_of_admitsGenuine
      intro i call hissued
      exact (Bool.and_eq_true_iff.mp (hadmits i call hissued)).1
    · intro i call hissued plan hmem
      have hall := (Bool.and_eq_true_iff.mp (hadmits i call hissued)).2
      have hplan := List.all_eq_true.mp hall plan hmem
      exact of_decide_eq_true hplan
  obtain ⟨events, cfg, hrun, hrunning⟩ : ∃ events cfg,
      Run services (perform digest) (AdmittedWith {examplePlan}) (Config.start World.empty)
        events cfg ∧ RunningOnce cfg.state :=
    play_reaches (m := services) (P := RunningOnce)
      (fun _ _ _ _ h => .inl ⟨canceledOracle, Option.some.inj h⟩) hguard hplay
  exact ⟨events, cfg, hrun, hrunning, attempts_are_replayed (Set.injOn_singleton _ _) hrun⟩

end Runs

section Executions

variable {sha256 : String → String} {plans : Set ExecutionPlan} {events : List LifecycleEvent}
  {cfg : LifecycleConfig}

/-- No two executions belong to one run, and each is the first attempt of its run. -/
structure ExecutedOnce (sha256 : String → String) (w : World) : Prop where
  single : w.executions.Pairwise fun later earlier => later.runId ≠ earlier.runId
  first : ∀ e ∈ w.executions, attemptIdentity sha256 e.runId 1 = .ok e.attemptId

/-- The backend only adds the execution that is submitted, when it does not have it. -/
theorem executions_step {cfg' : LifecycleConfig} {event : LifecycleEvent}
    (next : Step services (perform sha256) cfg event cfg') :
    cfg'.state.executions = cfg.state.executions ∨ ∃ plan runId attemptId trigger handle answer,
      event.operation = some ⟨.submitOrAdopt plan runId attemptId trigger, answer⟩ ∧
        (∀ e ∈ cfg.state.executions, e.runId = runId → e.attemptId ≠ attemptId) ∧
        cfg'.state.executions = ⟨runId, attemptId, handle⟩ :: cfg.state.executions := by
  rcases next.state with ⟨i, c, o, rest, answer, rfl, -, hstep⟩ | hsame
  · have hworld : cfg'.state = cfg.state ∨ ∃ oracle, cfg'.state = (serve oracle o cfg.state).2 := by
      rcases hstep with ⟨oracle, hserve⟩ | ⟨-, hfailed⟩
      · exact .inr ⟨oracle, by rw [hserve]⟩
      · exact hfailed
    rcases hworld with hsame | ⟨oracle, hserve⟩
    · exact .inl (by rw [hsame])
    rw [hserve]
    cases o with
    | submitOrAdopt plan runId attemptId trigger =>
      simp only [serve, World.submitOrAdopt]
      split
      · exact .inl rfl
      next hfind =>
        refine .inr ⟨plan, runId, attemptId, trigger, oracle.handle, answer, rfl, ?_, rfl⟩
        intro e he hrun hattempt
        exact List.find?_eq_none.mp hfind e he (by simp [hrun, hattempt])
    | _ =>
      refine .inl ?_
      simp only [serve, World.claimed, World.save, World.appendAttempt, World.observe]
      repeat' split
      all_goals rfl
  · exact .inl (by rw [hsame])

/-- Executions are different submissions of the run. -/
theorem executions_submitted (run : Run services (perform sha256) (AdmittedWith plans)
    (Config.start World.empty) events cfg) :
    cfg.state.executions.Pairwise (fun later earlier =>
      later.runId = earlier.runId → later.attemptId ≠ earlier.attemptId) ∧
    ∀ e ∈ cfg.state.executions, ∃ plan trigger, .submitOrAdopt plan e.runId e.attemptId trigger ∈
      requests (events.filterMap Event.operation) := by
  induction run with
  | refl => simp [Config.start, World.empty]
  | @snoc events cfg event cfg' before admitted next ih =>
    obtain ⟨hdistinct, hasked⟩ := ih
    have hearlier : ∀ e ∈ cfg.state.executions, ∃ plan trigger,
        .submitOrAdopt plan e.runId e.attemptId trigger ∈
          requests ((events ++ [event]).filterMap Event.operation) := by
      intro e he
      obtain ⟨plan, trigger, hmem⟩ := hasked e he
      rw [requests, List.filterMap_append, List.map_append]
      exact ⟨plan, trigger, List.mem_append_left _ hmem⟩
    rcases executions_step next with hsame | ⟨plan, runId, attemptId, trigger, handle, answer,
      hevent, hnew, hadded⟩
    · rw [hsame]
      exact ⟨hdistinct, hearlier⟩
    · rw [hadded]
      refine ⟨List.pairwise_cons.mpr ⟨fun e he hrun => (hnew e he hrun.symm).symm, hdistinct⟩, ?_⟩
      rintro e (_ | ⟨_, he⟩)
      · exact ⟨plan, trigger, by simp [requests, hevent]⟩
      · exact hearlier e he

/-- In every interleaving, with any crashes and failed calls, a run has one execution at most. -/
theorem runs_are_executed_once (hplans : Set.InjOn ExecutionPlan.revision plans)
    (run : Run services (perform sha256) (AdmittedWith plans) (Config.start World.empty)
      events cfg) : ExecutedOnce sha256 cfg.state := by
  have hstart : Replaying sha256 plans (World.empty, []) :=
    ⟨⟨by simp [World.empty], by simp [World.empty]⟩, by simp [requests]⟩
  have hsafe := run.traced.poolSafe (D := replayDiscipline sha256 plans)
    (fun _ _ _ _ _ _ => trivial) (fun _ _ _ _ _ _ => trivial)
    (fun cfg i c h hinv => replays_perform h hinv) (PoolSafe.start hstart)
  have hinv : Replaying sha256 plans (cfg.state, events.filterMap Event.operation) := hsafe.1.1
  obtain ⟨hdistinct, hasked⟩ := executions_submitted run
  constructor
  · refine hdistinct.imp_of_mem ?_
    intro later earlier hlater hearlier hdifferent hrun
    obtain ⟨plan, trigger, hmem⟩ := hasked later hlater
    obtain ⟨plan', trigger', hmem'⟩ := hasked earlier hearlier
    rw [← hrun] at hmem'
    exact hdifferent hrun ((hinv.replayed hplans).single _ _ _ _ _ _ _ hmem hmem').1
  · intro e he
    obtain ⟨plan, trigger, hmem⟩ := hasked e he
    obtain ⟨record, hlaunches, hrun, -⟩ := hinv.asked _ hmem
    rw [hrun]
    exact hlaunches.identity

/-- A dispatcher that is repeated after it crashed leaves the one execution. -/
theorem runs_are_executed_once_repeated : ∃ events cfg,
    Run services (perform digest) (AdmittedWith {examplePlan}) (Config.start World.empty)
      events cfg ∧ RunningOnce cfg.state ∧ ExecutedOnce digest cfg.state := by
  have hplay : (play (fun o w => some (serve canceledOracle o w)) (perform digest)
      (fun _ call => call = exampleDispatch) (Config.start World.empty)
      [.issue 0 exampleDispatch, .exec 0, .exec 0, .exec 0, .crash 0,
        .issue 1 exampleDispatch, .exec 1, .exec 1, .exec 1, .exec 1]).any
      (fun last => decide (RunningOnce last.state)) = true := by decide +kernel
  have hguard : ∀ (cfg : LifecycleConfig) (event : LifecycleEvent),
      (∀ i call, event = .issued i call → decide (call = exampleDispatch) = true) →
      AdmittedWith {examplePlan} cfg event := by
    intro cfg event hadmits
    refine ⟨admitted_of_admitsGenuine cfg event fun i call hissued => ?_, ?_⟩
    · rw [of_decide_eq_true (hadmits i call hissued)]
      rfl
    · intro i call hissued plan hplan
      rw [of_decide_eq_true (hadmits i call hissued)] at hplan
      simpa [Call.plans, exampleDispatch, exampleRegistry] using hplan
  obtain ⟨events, cfg, hrun, hrunning⟩ := play_reaches (m := services) (P := RunningOnce)
    (fun _ _ _ _ h => .inl ⟨canceledOracle, Option.some.inj h⟩) hguard hplay
  exact ⟨events, cfg, hrun, hrunning, runs_are_executed_once (Set.injOn_singleton _ _) hrun⟩

end Executions

end Dander.Lifecycle
