import Dander.S3RunStore
import Dander.SnapshotTimes

/-!
# The origin of a run

All snapshots of a run are made from the first one, by steps that leave its request and the
decisions that were taken for it alone. Its identity is that of the scope of its key.
-/
namespace Dander.Lifecycle

open Interleaving ObjectStore Orchestration
open RunStore (Scope)

section Property

/-- What no step changes of a run. -/
structure Unchanged (record later : RunRecord) : Prop where
  identity : later.identity = record.identity
  placementDecision : later.placementDecision = record.placementDecision
  sizeClassDecision : later.sizeClassDecision = record.sizeClassDecision

def Saved (history : History String RunRecord) (record : RunRecord) : Prop :=
  ∃ write ∈ history, write.value = some record

/-- The snapshots of a run have one origin, and the scope of its key tells which run it is. -/
structure RunsKept (sha256 : String → String) (history : History String RunRecord) : Prop where
  values : ∀ write ∈ history, ∃ record, write.value = some record ∧ write.name = record.runId
  named : ∀ record, Saved history record → record.runId =
    runIdentity sha256 record.environment record.project record.idempotencyKeySha256
  origin : ∀ record later, Saved history record → Saved history later →
    record.runId = later.runId → Unchanged record later

end Property

section Histories

variable {sha256 : String → String} {history later : History String RunRecord}
  {record other last : RunRecord} {w : World} {stored : StoredRun}

theorem Unchanged.refl (record : RunRecord) : Unchanged record record := ⟨rfl, rfl, rfl⟩

theorem Unchanged.trans (h : Unchanged record other) (h' : Unchanged other last) :
    Unchanged record last :=
  ⟨h'.identity.trans h.identity, h'.placementDecision.trans h.placementDecision,
    h'.sizeClassDecision.trans h.sizeClassDecision⟩

theorem Unchanged.symm (h : Unchanged record other) : Unchanged other record :=
  ⟨h.identity.symm, h.placementDecision.symm, h.sizeClassDecision.symm⟩

theorem Unchanged.runId (h : Unchanged record other) : other.runId = record.runId :=
  congrArg RunIdentity.runId h.identity

theorem Unchanged.scope (h : Unchanged record other) :
    RunStore.RunRecord.scope other = RunStore.RunRecord.scope record :=
  congrArg (fun identity : RunIdentity =>
    Scope.mk identity.environment identity.project identity.idempotencyKeySha256) h.identity

theorem unchanged_of_transition {state : HostedRunState} {now : ℤ} {changes : RunChanges}
    (h : transitionRun sha256 record state now changes = .ok other) : Unchanged record other := by
  obtain ⟨_, rfl⟩ := transitionRun_eq_ok_iff.mp h
  exact ⟨rfl, rfl, rfl⟩

theorem Saved.mono (h : Saved history record) (hle : history <:+ later) : Saved later record := by
  obtain ⟨write, hmem, hvalue⟩ := h
  exact ⟨write, hle.subset hmem, hvalue⟩

theorem saved_of_genuine (h : Genuine w stored) : Saved w.snapshots stored.record := by
  obtain ⟨author, hrecorded⟩ := h
  exact ⟨_, mem_of_recorded hrecorded, rfl⟩

theorem RunsKept.unnamed (hkept : RunsKept sha256 history) {name : String}
    (h : current history name = none) : ∀ record, Saved history record → record.runId ≠ name := by
  intro record hsaved hname
  obtain ⟨write, hmem, hvalue⟩ := hsaved
  have hvalues : ∀ write ∈ history, write.value ≠ none := by
    intro write hwrite
    obtain ⟨record, hrecord, _⟩ := hkept.values write hwrite
    rw [hrecord]
    exact Option.some_ne_none record
  obtain ⟨record', hvalue', hrunId⟩ := hkept.values write hmem
  rw [hvalue, Option.some.injEq] at hvalue'
  rw [← hvalue', hname] at hrunId
  exact name_ne_of_current_none hvalues h write hmem hrunId

/-- A snapshot that is made from the earlier ones of its run. -/
theorem RunsKept.add (hkept : RunsKept sha256 history) (hnamed : record.runId =
      runIdentity sha256 record.environment record.project record.idempotencyKeySha256)
    (horigin : ∀ earlier, Saved history earlier → earlier.runId = record.runId →
      Unchanged earlier record) :
    RunsKept sha256 (⟨record.runId, some record, 0⟩ :: history) := by
  have hsaved : ∀ other, Saved (⟨record.runId, some record, 0⟩ :: history) other ↔
      other = record ∨ Saved history other := by
    intro other
    simp only [Saved, List.mem_cons, exists_eq_or_imp, Option.some.injEq]
    exact or_congr eq_comm Iff.rfl
  constructor
  · intro write hwrite
    rcases List.mem_cons.mp hwrite with rfl | hold
    · exact ⟨record, rfl, rfl⟩
    · exact hkept.values write hold
  · intro other hother
    rcases (hsaved other).mp hother with rfl | hold
    · exact hnamed
    · exact hkept.named other hold
  · intro first last hfirst hlast hsame
    rcases (hsaved first).mp hfirst with hnew | hold
    · rcases (hsaved last).mp hlast with hnew' | hold'
      · rw [hnew, hnew']
        exact .refl record
      · rw [hnew] at hsame ⊢
        exact (horigin last hold' hsame.symm).symm
    · rcases (hsaved last).mp hlast with hnew' | hold'
      · rw [hnew'] at hsame ⊢
        exact horigin first hold hsame
      · exact hkept.origin first last hold hold' hsame

theorem RunsKept.genuine_of_current (hkept : RunsKept sha256 w.snapshots) {runId : String}
    {version : Version RunRecord} (h : current w.snapshots runId = some version) :
    version.value.runId = runId ∧ Genuine w ⟨version.value, version.etag⟩ := by
  obtain ⟨author, hrecorded⟩ := recorded_of_current h
  obtain ⟨record, hvalue, hname⟩ := hkept.values _ (mem_of_recorded hrecorded)
  obtain rfl := Option.some.inj hvalue
  refine ⟨hname.symm, author, ?_⟩
  rw [← hname]
  exact hrecorded

end Histories

section Steps

variable {sha256 : String → String} {w t u : World} {o : Request} {answer : Answer o}

/-- What a request of Control's steps is like. -/
def Faithful (sha256 : String → String) : Request → World → Prop
  | .claim record, _ => record.runId =
      runIdentity sha256 record.environment record.project record.idempotencyKeySha256
  | .save stored record, w => Genuine w stored ∧ Unchanged stored.record record
  | _, _ => True

theorem RunsKept.served (hkept : RunsKept sha256 w.snapshots) (hfaithful : Faithful sha256 o w)
    (oracle : Oracle) : RunsKept sha256 (serve oracle o w).2.snapshots := by
  rcases serve_snapshots oracle o w with hsame | ⟨record, hadded, ⟨rfl, hnone⟩ | ⟨stored, rfl, _, _⟩⟩
  · rw [hsame]
    exact hkept
  · rw [hadded]
    apply hkept.add hfaithful
    intro earlier hearlier hrunId
    exact absurd hrunId (hkept.unnamed hnone earlier hearlier)
  · obtain ⟨hgenuine, hunchanged⟩ := hfaithful
    have hsaved := saved_of_genuine hgenuine
    rw [hadded]
    apply hkept.add
    · have hnamed := hkept.named _ hsaved
      have hscope := hunchanged.scope
      simp only [RunStore.RunRecord.scope, Scope.mk.injEq] at hscope
      rw [hunchanged.runId, hscope.1, hscope.2.1, hscope.2.2]
      exact hnamed
    · intro earlier hearlier hrunId
      rw [hunchanged.runId] at hrunId
      exact (hkept.origin earlier stored.record hearlier hsaved hrunId).trans hunchanged

/-- A faithful request keeps the origins, whether it is served or fails. -/
theorem RunsKept.step (hkept : RunsKept sha256 t.snapshots) (hfaithful : Faithful sha256 o t)
    (h : services.step o t answer u) :
    RunsKept sha256 u.snapshots ∧ t.snapshots <:+ u.snapshots := by
  rcases h with ⟨oracle, hserved⟩ | ⟨_, rfl | ⟨oracle, rfl⟩⟩
  · have hworld : (serve oracle o t).2 = u := by rw [hserved]
    rw [← hworld]
    exact ⟨hkept.served hfaithful oracle, serve_suffix oracle o t⟩
  · exact ⟨hkept, List.suffix_refl _⟩
  · exact ⟨hkept.served hfaithful oracle, serve_suffix oracle o t⟩

end Steps

section Programs

variable {sha256 : String → String} {s t u : World} {α β : Type} {stored : StoredRun}

/-- Snapshots are added, and keep their origins. -/
def originDiscipline (sha256 : String → String) : Discipline World where
  inv w := RunsKept sha256 w.snapshots
  le w later := w.snapshots <:+ later.snapshots
  refl _ := List.suffix_refl _
  trans _ _ _ hab hbc := hab.trans hbc

/-- Whatever others do, the program keeps the origins. -/
def Preserves (sha256 : String → String) (p : Action α) (s : World) : Prop :=
  Safe services (originDiscipline sha256) (fun _ _ => True) (fun _ _ => True) p s

theorem preserves_request {o : Request} {next : Answer o → Action α}
    (hasked : ∀ t, s.snapshots <:+ t.snapshots → Faithful sha256 o t)
    (hnext : ∀ t u answer, s.snapshots <:+ u.snapshots → RunsKept sha256 t.snapshots →
      t.snapshots <:+ u.snapshots → services.step o t answer u → Preserves sha256 (next answer) u) :
    Preserves sha256 (.call o next) s := by
  intro t hle hinv answer u hstep
  obtain ⟨hinv', hle'⟩ := RunsKept.step hinv (hasked t hle) hstep
  exact ⟨hinv', hle', hnext t u answer (hle.trans hle') hinv hle' hstep⟩

theorem preserves_bind {p : Action α} {f : α → Action β} (hp : Preserves sha256 p s)
    (hf : ∀ a t, s.snapshots <:+ t.snapshots → Preserves sha256 (f a) t) :
    Preserves sha256 (p >>= f) s := Safe.bind hp (fun a t hle _ => hf a t hle)

theorem preserves_liftStore {result : Except RunStoreError α} :
    Preserves sha256 (liftStore result) s := by
  cases result <;> trivial

theorem preserves_liftContract {result : Except ContractError α} {f : α → Action β}
    (hf : ∀ a, result = .ok a → Preserves sha256 (f a) s) :
    Preserves sha256 (liftContract result >>= f) s := by
  cases result with
  | ok a => exact hf a rfl
  | error e => trivial

theorem preserves_liftRegistry {result : Except LifecycleError α} {f : α → Action β}
    (hf : ∀ a, Preserves sha256 (f a) s) : Preserves sha256 (liftRegistry result >>= f) s := by
  cases result with
  | ok a => exact hf a
  | error e => trivial

theorem genuine_of_claim {record : RunRecord} {claim : RunClaim}
    (hkept : RunsKept sha256 t.snapshots) (h : services.step (.claim record) t (.ok claim) u) :
    Genuine u claim.stored := by
  rcases h with ⟨oracle, hserved⟩ | ⟨⟨message, hfailed⟩, _⟩
  · have hserved : t.claimed record = (.ok claim, u) := hserved
    unfold World.claimed at hserved
    split at hserved
    next hnone =>
      obtain ⟨hanswer, hworld⟩ := Prod.mk.inj hserved
      obtain rfl := Except.ok.inj hanswer
      refine ⟨0, ?_⟩
      rw [← hworld]
      simp [recorded]
    next version hcurrent =>
      split at hserved
      · cases (Prod.mk.inj hserved).1
      · split at hserved
        · cases (Prod.mk.inj hserved).1
        · obtain ⟨hanswer, rfl⟩ := Prod.mk.inj hserved
          obtain rfl := Except.ok.inj hanswer
          exact (hkept.genuine_of_current hcurrent).2
  · cases hfailed

theorem genuine_of_get {runId : String} (hkept : RunsKept sha256 t.snapshots)
    (h : services.step (.get runId) t (.ok (some stored)) u) : Genuine u stored := by
  rcases h with ⟨oracle, hserved⟩ | ⟨⟨message, hfailed⟩, _⟩
  · obtain ⟨hanswer, rfl⟩ := Prod.mk.inj hserved
    have hfound := Except.ok.inj hanswer
    obtain ⟨version, hcurrent, rfl⟩ := Option.map_eq_some_iff.mp hfound
    exact (hkept.genuine_of_current hcurrent).2
  · cases hfailed

/-- Saves what was made from a snapshot of the store. -/
theorem preserves_save {updated : RunRecord} {next : Except RunStoreError StoredRun → Action α}
    (hgenuine : Genuine s stored) (hunchanged : Unchanged stored.record updated)
    (hnext : ∀ saved u, s.snapshots <:+ u.snapshots → Preserves sha256 (next saved) u) :
    Preserves sha256 (.call (.save stored updated) next) s := by
  apply preserves_request
  · intro t hle
    exact ⟨hgenuine.mono hle, hunchanged⟩
  · intro t u saved hle _ _ _
    exact hnext saved u hle

theorem preserves_submitAttempt {plan : ExecutionPlan} {now : ℤ} {attemptNumber : ℕ}
    {attemptId : String} (hgenuine : Genuine s stored) :
    Preserves sha256 (submitAttempt sha256 stored plan now attemptNumber attemptId) s := by
  refine preserves_request (fun _ _ => trivial) ?_
  intro t u appended hle _ _ _
  apply preserves_bind preserves_liftStore
  intro _ v hv
  refine preserves_request (fun _ _ => trivial) ?_
  intro x y submitted hy _ _ _
  cases submitted with
  | none => trivial
  | some handle =>
    dsimp only
    split
    · trivial
    · apply preserves_liftContract
      intro updated hupdated
      apply preserves_save (hgenuine.mono ((hle.trans hv).trans hy)) (unchanged_of_transition hupdated)
      intro saved z _
      exact preserves_liftStore

theorem preserves_dispatchStoredRunAttempt {plan : ExecutionPlan} {now : ℤ}
    (hgenuine : Genuine s stored) :
    Preserves sha256 (dispatchStoredRunAttempt sha256 stored plan now) s := by
  simp only [dispatchStoredRunAttempt]
  split
  · trivial
  · split
    · trivial
    · split
      · trivial
      · split
        · trivial
        · apply preserves_liftContract
          intro attemptId _
          exact preserves_submitAttempt hgenuine

theorem preserves_dispatchRunAttempt {submission : RunSubmission} {plan : ExecutionPlan} {now : ℤ} :
    Preserves sha256 (dispatchRunAttempt sha256 submission plan now) s := by
  apply preserves_liftContract
  intro _ _
  refine preserves_request (fun _ _ => rfl) ?_
  intro t u claimed _ hkept _ hclaimed
  cases claimed with
  | error e => trivial
  | ok claim =>
    show Preserves sha256 (ite _ _ _) u
    split
    · trivial
    · exact preserves_dispatchStoredRunAttempt (genuine_of_claim hkept hclaimed)

theorem preserves_start {registry : Registry} {submission : RunSubmission} :
    Preserves sha256 (start sha256 registry submission) s := by
  apply preserves_liftRegistry
  intro plan
  apply preserves_liftRegistry
  intro _
  refine preserves_request (fun _ _ => trivial) ?_
  intro t u now _ _ _ _
  apply preserves_bind
  · refine Safe.tryCatch preserves_dispatchRunAttempt ?_
    intro e v _ _
    show Preserves sha256 (recoverStart sha256 submission e) v
    unfold recoverStart
    split
    · trivial
    · refine preserves_request (fun _ _ => trivial) ?_
      intro x y found _ _ _ _
      apply preserves_bind preserves_liftStore
      intro recovered z _
      split
      · trivial
      · split <;> trivial
    all_goals trivial
  · intro stored v _
    apply preserves_liftContract
    intro _ _
    trivial

theorem unchanged_observedRecord {record updated : RunRecord} {observation : BackendObservation}
    (h : observedRecord sha256 record observation = .ok (some updated)) :
    Unchanged record updated := by
  rcases observedRecord_cases h with ⟨_, rfl⟩ | ⟨state, _, rfl⟩
  · exact ⟨rfl, rfl, rfl⟩
  · exact ⟨rfl, rfl, rfl⟩

theorem preserves_observeStored {plan : ExecutionPlan} {handle : BackendHandle}
    (hgenuine : Genuine s stored) :
    Preserves sha256 (observeStored sha256 stored plan handle) s := by
  refine preserves_request (fun _ _ => trivial) ?_
  intro t u observed hle _ _ _
  cases observed with
  | none => trivial
  | some observation =>
    apply preserves_liftContract
    intro updated hupdated
    cases updated with
    | none => trivial
    | some updated =>
      dsimp only
      split
      · trivial
      · apply preserves_save (hgenuine.mono hle) (unchanged_observedRecord hupdated)
        intro saved v _
        exact preserves_liftStore

theorem preserves_reconcileStored {registry : Registry} (hgenuine : Genuine s stored) :
    Preserves sha256 (reconcileStored sha256 registry stored) s := by
  simp only [reconcileStored]
  split
  · trivial
  · apply preserves_liftRegistry
    intro plan
    split
    · refine preserves_request (fun _ _ => trivial) ?_
      intro t u now hle _ _ _
      exact preserves_dispatchStoredRunAttempt (hgenuine.mono hle)
    · split
      · split <;> trivial
      next handle _ =>
        split
        · refine preserves_request (fun _ _ => trivial) ?_
          intro t u canceled hle _ _ _
          cases canceled with
          | none => trivial
          | some _ => exact preserves_observeStored (hgenuine.mono hle)
        · exact preserves_observeStored hgenuine

theorem preserves_saveCancellation {updated : RunRecord} (hgenuine : Genuine s stored)
    (hunchanged : Unchanged stored.record updated) :
    Preserves sha256 (saveCancellation stored updated) s := by
  apply preserves_save hgenuine hunchanged
  intro saved u _
  split <;> trivial

theorem preserves_markCanceling (hgenuine : Genuine s stored) :
    Preserves sha256 (markCanceling sha256 stored) s := by
  unfold markCanceling
  split
  · trivial
  · refine preserves_request (fun _ _ => trivial) ?_
    intro t u now hle _ _ _
    apply preserves_liftContract
    intro canceling hcanceling
    exact preserves_saveCancellation (hgenuine.mono hle) (unchanged_of_transition hcanceling)

theorem preserves_cancelOnce {registry : Registry} {runId : String} :
    Preserves sha256 (cancelOnce sha256 registry runId) s := by
  refine preserves_request (fun _ _ => trivial) ?_
  intro t u found hle hkept _ hfound
  match found, hfound with
  | .error e, _ => trivial
  | .ok none, _ => trivial
  | .ok (some stored), hfound =>
    have hgenuine := genuine_of_get hkept hfound
    show Preserves sha256 (ite _ _ _) u
    split
    · apply preserves_liftContract
      intro _ _
      trivial
    · split
      · refine preserves_request (fun _ _ => trivial) ?_
        intro x y now hy _ _ _
        apply preserves_liftContract
        intro canceled hcanceled
        apply preserves_bind
        · exact preserves_saveCancellation (hgenuine.mono hy) (unchanged_of_transition hcanceled)
        · intro saved z _
          apply preserves_liftContract
          intro _ _
          trivial
      · split
        · trivial
        · apply preserves_bind (preserves_markCanceling hgenuine)
          intro canceling y _
          apply preserves_liftRegistry
          intro plan
          split
          · trivial
          · refine preserves_request (fun _ _ => trivial) ?_
            intro _ z canceled _ _ _ _
            cases canceled <;> trivial

theorem preserves_take {call : ControlCall}
    (hgenuine : ∀ stored, call.step = .reconcile stored → Genuine s stored) :
    Preserves sha256 (take sha256 call) s := by
  unfold take
  split
  · exact preserves_bind preserves_start (fun _ _ _ => trivial)
  · exact preserves_bind preserves_cancelOnce (fun _ _ _ => trivial)
  next stored hcall =>
    exact preserves_bind (preserves_reconcileStored (hgenuine stored hcall)) (fun _ _ _ => trivial)

end Programs

section Lookups

/-- The run of a key: the current one of the snapshots that have its scope. -/
def World.findIdempotency (w : World) (scope : Scope) : Option StoredRun :=
  (w.snapshots.find? fun write => write.value.any fun record =>
    RunStore.RunRecord.scope record = scope).bind fun write =>
      (current w.snapshots write.name).map fun version => ⟨version.value, version.etag⟩

variable {sha256 : String → String} {w later : World} {record : RunRecord} {stored : StoredRun}
  {scope : Scope}

theorem RunsKept.same_run (hkept : RunsKept sha256 w.snapshots) {other : RunRecord}
    (hrecord : Saved w.snapshots record) (hother : Saved w.snapshots other)
    (hscope : RunStore.RunRecord.scope record = RunStore.RunRecord.scope other) :
    Unchanged record other := by
  apply hkept.origin record other hrecord hother
  simp only [RunStore.RunRecord.scope, Scope.mk.injEq] at hscope
  rw [hkept.named record hrecord, hkept.named other hother, hscope.1, hscope.2.1, hscope.2.2]

/-- What is found is a snapshot of the key. -/
theorem RunsKept.found (hkept : RunsKept sha256 w.snapshots)
    (h : w.findIdempotency scope = some stored) :
    Genuine w stored ∧ RunStore.RunRecord.scope stored.record = scope := by
  obtain ⟨write, hfind, hcurrent⟩ := Option.bind_eq_some_iff.mp h
  obtain ⟨version, hversion, rfl⟩ := Option.map_eq_some_iff.mp hcurrent
  have hmem := List.mem_of_find?_eq_some hfind
  have hscope := List.find?_some hfind
  obtain ⟨record, hvalue, hname⟩ := hkept.values write hmem
  rw [hvalue, Option.any_some, decide_eq_true_eq] at hscope
  obtain ⟨hrunId, hgenuine⟩ := hkept.genuine_of_current hversion
  refine ⟨hgenuine, ?_⟩
  have hsame := hkept.origin record version.value ⟨write, hmem, hvalue⟩
    (saved_of_genuine hgenuine) (by rw [hrunId, hname])
  rw [← hscope]
  exact hsame.scope

/-- A run is found under its key. -/
theorem RunsKept.find (hkept : RunsKept sha256 w.snapshots) (hsaved : Saved w.snapshots record) :
    ∃ stored, w.findIdempotency (RunStore.RunRecord.scope record) = some stored ∧
      Genuine w stored ∧ Unchanged record stored.record := by
  have hfound : ∃ stored, w.findIdempotency (RunStore.RunRecord.scope record) = some stored := by
    obtain ⟨write, hmem, hvalue⟩ := hsaved
    cases hfind : w.snapshots.find? fun write => write.value.any fun other =>
        RunStore.RunRecord.scope other = RunStore.RunRecord.scope record with
    | none =>
      have habsent := List.find?_eq_none.mp hfind write hmem
      simp [hvalue] at habsent
    | some first =>
      have hfirst := List.mem_of_find?_eq_some hfind
      obtain ⟨other, hother, hname⟩ := hkept.values first hfirst
      cases hcurrent : current w.snapshots first.name with
      | none => exact absurd hname.symm (hkept.unnamed hcurrent other ⟨first, hfirst, hother⟩)
      | some version =>
        refine ⟨⟨version.value, version.etag⟩, ?_⟩
        unfold World.findIdempotency
        rw [hfind, Option.bind_some, hcurrent]
        rfl
  obtain ⟨stored, hstored⟩ := hfound
  obtain ⟨hgenuine, hscope⟩ := hkept.found hstored
  exact ⟨stored, hstored, hgenuine,
    hkept.same_run hsaved (saved_of_genuine hgenuine) hscope.symm⟩

theorem RunsKept.find_later (hkept : RunsKept sha256 w.snapshots)
    (hlater : RunsKept sha256 later.snapshots) (hle : w.snapshots <:+ later.snapshots)
    (h : w.findIdempotency scope = some stored) :
    ∃ found, later.findIdempotency scope = some found ∧ Unchanged stored.record found.record := by
  obtain ⟨hgenuine, rfl⟩ := hkept.found h
  obtain ⟨found, hfound, _, hunchanged⟩ := hlater.find ((saved_of_genuine hgenuine).mono hle)
  exact ⟨found, hfound, hunchanged⟩

end Lookups

section System

open Relation (ReflTransGen)

abbrev ControlConfig := Config Request Answer LifecycleError Outcome ControlCall World

abbrev ControlEvent := Event Request Answer LifecycleError Outcome ControlCall

/-- Reconcilers are given snapshots that came from the store. -/
def FromStore (cfg : ControlConfig) : ControlEvent → Prop
  | .issued _ call => ∀ stored, call.step = .reconcile stored → Genuine cfg.state stored
  | _ => True

/-- A step of any process of Control. -/
def ControlMoves (sha256 : String → String) (cfg cfg' : ControlConfig) : Prop :=
  ∃ event, FromStore cfg event ∧ Step services (take sha256) cfg event cfg'

variable {sha256 : String → String} {cfg cfg' : ControlConfig}

/-- The store keeps the origins of its runs, and so do all calls that are under way. -/
def OriginsKept (sha256 : String → String) (cfg : ControlConfig) : Prop :=
  PoolSafe services (originDiscipline sha256) (fun _ _ _ => True) (fun _ _ _ => True) cfg

theorem OriginsKept.start {w : World} (h : RunsKept sha256 w.snapshots) :
    OriginsKept sha256 (.start w) := PoolSafe.start h

theorem OriginsKept.move (h : OriginsKept sha256 cfg) (move : ControlMoves sha256 cfg cfg') :
    OriginsKept sha256 cfg' ∧ cfg.state.snapshots <:+ cfg'.state.snapshots := by
  obtain ⟨event, hadmitted, hstep⟩ := move
  have hstable : ∀ {α : Type} (_ : ControlCall),
      Stable (originDiscipline sha256) (fun (_ : α) (_ : World) => True) := by
    intro α _ a s t _ _
    trivial
  have hbody : ∀ i call, event = .issued i call → RunsKept sha256 cfg.state.snapshots →
      Preserves sha256 (take sha256 call) cfg.state := by
    intro i call hevent _
    rw [hevent] at hadmitted
    exact preserves_take hadmitted
  exact PoolSafe.step (fun call => hstable call) (fun call => hstable call) hbody h hstep

theorem OriginsKept.moves (h : OriginsKept sha256 cfg)
    (moves : ReflTransGen (ControlMoves sha256) cfg cfg') :
    OriginsKept sha256 cfg' ∧ cfg.state.snapshots <:+ cfg'.state.snapshots := by
  induction moves with
  | refl => exact ⟨h, List.suffix_refl _⟩
  | tail before move ih =>
    obtain ⟨hkept, hle⟩ := ih
    obtain ⟨hkept', hle'⟩ := hkept.move move
    exact ⟨hkept', hle.trans hle'⟩

end System

end Dander.Lifecycle
