import Dander.CallTraces
import Dander.MutationClaims
import Dander.RunEntryPoints
import Dander.RunLifecycleSafety

/-!
# Repeated cancellations

A cancellation answers with the result its key was claimed with, whatever has become of the run
in between and whoever claimed it. Its own preconditions come before the claim: a cancellation
that fails them never touches the claims.
-/
namespace Dander.Lifecycle

open Interleaving ObjectStore Orchestration MutationClaims RunStore

section Property

variable {O : Type} {R : O → Type} {M : Type} (store : ClaimStore O R M)
  (sha256 : String → String) (modelValidateJson : String → Option OperationResult)

def claimingWith : Claiming O R := ⟨store.claimMutation, modelValidateJson⟩

abbrev EntryConfig (R : O → Type) (M : Type) :=
  Config (EntryRequest O) (EntryAnswer R) LifecycleError EntryOutcome EntryCall (EntryWorld M)

abbrev EntryRun (runs : Machine Request Answer World) (claims : Machine O R M)
    (guard : EntryConfig R M →
      Event (EntryRequest O) (EntryAnswer R) LifecycleError EntryOutcome EntryCall → Prop) :=
  Run (entryServices runs claims) (enter sha256 (claimingWith store modelValidateJson)) guard

abbrev EntryStep (runs : Machine Request Answer World) (claims : Machine O R M) :=
  Step (entryServices runs claims) (enter sha256 (claimingWith store modelValidateJson))

/-- Changes no run and calls no backend. -/
def EntryRequest.LeavesRuns : EntryRequest O → Prop
  | .run (.get _) => True
  | .run _ => False
  | .claim _ => True

/-- The run had this snapshot, or had none. -/
def Seen (w : World) (runId : String) (found : Option RunRecord) : Prop :=
  ∀ record, found = some record →
    ∃ etag author, recorded w.snapshots etag = some ⟨runId, some record, author⟩

/-- Why a cancellation of what was found is refused before its key is compared. -/
inductive Refused (registry : Registry) (runId idempotencyKey : String) :
    Option RunRecord → Prop
  | malformed (found : Option RunRecord)
      (h : GraphStore.isIdempotencyKey idempotencyKey = false) : Refused registry runId
      idempotencyKey found
  | missing : Refused registry runId idempotencyKey none
  | precondition (record : RunRecord) (e : LifecycleError)
      (h : validateCancelPreconditions registry record = .error e) :
      Refused registry runId idempotencyKey (some record)
  | unplanned (record : RunRecord) (e : ContractError) (h : plannedCancelResult record = .error e) :
      Refused registry runId idempotencyKey (some record)
  | unaccepted (record : RunRecord) (planned : OperationResult)
      (h : plannedCancelResult record = .ok planned)
      (h' : ¬ store.accepts (sha256 idempotencyKey) "cancel" runId (mutationResultBytes planned)) :
      Refused registry runId idempotencyKey (some record)

/-- A run of any calls, from the beginning. -/
abbrev Reached (events : List (Event (EntryRequest O) (EntryAnswer R) LifecycleError EntryOutcome
    EntryCall)) (cfg : EntryConfig R M) : Prop :=
  EntryRun store sha256 modelValidateJson services store.faulty (fun _ _ => True)
    (.start ⟨World.empty, store.empty⟩) events cfg

/-- A cancellation under a key that is claimed for another run is made. -/
structure IssuedForOther (cfg : EntryConfig R M) (i : ℕ) (call : EntryCall) (runId : String)
    (idempotencyKey : String) (issued : EntryConfig R M) : Prop where
  cancellation : call.entry = .cancel runId idempotencyKey
  claimed : ∃ entry, store.claimed cfg.state.claims (sha256 idempotencyKey) = some entry ∧
    entry.runId ≠ runId
  step : EntryStep store sha256 modelValidateJson services store.faulty cfg (.issued i call) issued

structure CancelIdempotency : Prop where
  /-- Whatever is returned under one key is one result. -/
  same : ∀ events cfg, Reached store sha256 modelValidateJson events cfg →
    ∀ i j (first second : EntryCall) runId runId' idempotencyKey (result result' : EntryOutcome),
      first.entry = .cancel runId idempotencyKey → second.entry = .cancel runId' idempotencyKey →
      Event.finished i first (.ok result) ∈ events →
      Event.finished j second (.ok result') ∈ events → result = result'
  /-- Under a key that is claimed for another run nothing is returned and no run changes. -/
  other : ∀ events cfg, Reached store sha256 modelValidateJson events cfg →
    ∀ i call runId idempotencyKey issued,
      IssuedForOther store sha256 modelValidateJson cfg i call runId idempotencyKey issued →
    ∀ later last, EntryRun store sha256 modelValidateJson services store.faulty
        (Follows i fun _ _ => True) issued later last →
      (∀ d o answer, Event.performed i d o answer ∈ later → o.LeavesRuns) ∧
      ∀ d out after, EntryStep store sha256 modelValidateJson services store.faulty last
        (.finished i d out) after → ∃ e, out = .error e
  /-- If then every operation is answered, the key is reported, unless there was another reason
  to refuse. -/
  reported : ∀ events cfg, Reached store sha256 modelValidateJson events cfg →
    ∀ i call runId idempotencyKey issued,
      IssuedForOther store sha256 modelValidateJson cfg i call runId idempotencyKey issued →
    ∀ later last, EntryRun store sha256 modelValidateJson answering store.answering
        (Follows i fun _ _ => True) issued later last →
    ∀ d out after, EntryStep store sha256 modelValidateJson answering store.answering last
        (.finished i d out) after →
      (∃ message, out = .error (.idempotencyConflict message)) ∨
        ∃ found, Seen last.state.runs runId found ∧
          Refused store sha256 call.registry runId idempotencyKey found
  /-- Claims are touched only after the run was read and met the preconditions. -/
  unclaimed : ∀ events cfg, Reached store sha256 modelValidateJson events cfg →
    ∀ i (call : EntryCall) runId idempotencyKey o answer after,
      call.entry = .cancel runId idempotencyKey →
      EntryStep store sha256 modelValidateJson services store.faulty cfg
        (.performed i call (.claim o) answer) after →
      ∃ (stored : StoredRun) (rest : List (Sigma (EntryAnswer R))),
        performedBy i events = ⟨.run (.get runId), .ok (some stored)⟩ :: rest ∧
        validateCancelPreconditions call.registry stored.record = .ok ()

end Property

section Discipline

variable {O : Type} {R : O → Type} {M : Type} {store : ClaimStore O R M} {α β : Type}

/-- Snapshots are added, and claims are kept. -/
def entryDiscipline (store : ClaimStore O R M) : Discipline (EntryWorld M) where
  inv s := store.discipline.inv s.claims
  le s t := s.runs.snapshots <:+ t.runs.snapshots ∧ store.discipline.le s.claims t.claims
  refl _ := ⟨List.suffix_refl _, store.discipline.refl _⟩
  trans _ _ _ hab hbc := ⟨hab.1.trans hbc.1, store.discipline.trans _ _ _ hab.2 hbc.2⟩

theorem snapshots_suffix (oracle : Oracle) (o : Request) (w : World) :
    w.snapshots <:+ (serve oracle o w).2.snapshots := by
  cases o with
  | claim record =>
    simp only [serve, World.claimed]
    split
    · exact List.suffix_cons _ _
    · split
      · exact List.suffix_refl _
      · split <;> exact List.suffix_refl _
  | get runId => exact List.suffix_refl _
  | save stored record =>
    simp only [serve, World.save]
    split
    · exact List.suffix_refl _
    · split
      · exact List.suffix_cons _ _
      · exact List.suffix_refl _
  | appendAttempt attempt =>
    simp only [serve, World.appendAttempt]
    split
    · exact List.suffix_refl _
    · split <;> exact List.suffix_refl _
  | submitOrAdopt plan runId attemptId trigger =>
    simp only [serve, World.submitOrAdopt]
    split <;> exact List.suffix_refl _
  | observe plan handle =>
    simp only [serve, World.observe]
    split <;> exact List.suffix_refl _
  | cancel plan handle => exact List.suffix_refl _
  | clock => exact List.suffix_refl _

/-- Services that only add snapshots. -/
def AddsSnapshots (runs : Machine Request Answer World) : Prop :=
  ∀ o w answer w', runs.step o w answer w' → w.snapshots <:+ w'.snapshots

theorem services_addsSnapshots : AddsSnapshots services := by
  rintro o w answer w' (⟨oracle, h⟩ | ⟨-, rfl | ⟨oracle, rfl⟩⟩)
  · have hsuffix := snapshots_suffix oracle o w
    rw [h] at hsuffix
    exact hsuffix
  · exact List.suffix_refl _
  · exact snapshots_suffix oracle o w

theorem answering_services {o : Request} {w w' : World} {answer : Answer o}
    (h : answering.step o w answer w') : services.step o w answer w' := .inl h

theorem answering_addsSnapshots : AddsSnapshots answering :=
  fun o w answer w' h => services_addsSnapshots o w answer w' (answering_services h)

theorem answering_entryServices {o : EntryRequest O} {s t : EntryWorld M} {answer : EntryAnswer R o}
    (h : (entryServices answering store.answering).step o s answer t) :
    (entryServices services store.faulty).step o s answer t := by
  cases o with
  | run o => exact ⟨answering_services h.1, h.2⟩
  | claim o => exact ⟨store.answering_faulty _ _ _ _ h.1, h.2⟩

variable {runs : Machine Request Answer World} {claims : Machine O R M}
  {s : EntryWorld M}

/-- Programs on runs leave the claims alone. -/
theorem safe_onRuns (hruns : AddsSnapshots runs) (p : Action α) (s : EntryWorld M) :
    Safe (entryServices runs claims) (entryDiscipline store) (fun _ _ => True) (fun _ _ => True)
      (onRuns p : EntryAction R α) s := by
  induction p generalizing s with
  | ret a => trivial
  | raise e => trivial
  | call o next ih =>
    intro t _ hinv answer t' hstep
    obtain ⟨hstep, hclaims⟩ := hstep
    refine ⟨?_, ⟨hruns _ _ _ _ hstep, ?_⟩, ih answer t'⟩
    · show store.discipline.inv t'.claims
      rw [hclaims]
      exact hinv
    · rw [hclaims]
      exact store.discipline.refl _

/-- Programs on claims leave the runs alone. -/
theorem safe_onClaims {Q : α → M → Prop} {E : RunStoreError → M → Prop}
    {p : Prog O R RunStoreError α} (hp : Safe claims store.discipline Q E p s.claims) :
    Safe (entryServices runs claims) (entryDiscipline store) (fun a t => Q a t.claims)
      (fun e t => ∃ e', e = .store e' ∧ E e' t.claims) (onClaims p : EntryAction R α) s := by
  have hstep : ∀ o (t : EntryWorld M) answer t',
      (entryServices runs claims).step (.claim o) t answer t' →
      claims.step o t.claims answer t'.claims ∧
        ((entryDiscipline store).inv t → store.discipline.inv t'.claims →
          store.discipline.le t.claims t'.claims →
          (entryDiscipline store).inv t' ∧ (entryDiscipline store).le t t') := by
    intro o t answer t' hstep
    obtain ⟨hclaim, hsame⟩ := hstep
    refine ⟨hclaim, ?_⟩
    intro _ hinv hle
    refine ⟨hinv, ?_, hle⟩
    rw [hsame]
  have hle : ∀ u v : EntryWorld M, (entryDiscipline store).le u v →
      store.discipline.le u.claims v.claims := fun u v h => h.2
  have hinv : ∀ u : EntryWorld M, (entryDiscipline store).inv u →
      store.discipline.inv u.claims := fun u h => h
  exact Safe.embed hle hinv hstep hp

theorem safe_liftEntry {m : Machine (EntryRequest O) (EntryAnswer R) (EntryWorld M)}
    (result : Except LifecycleError α) (s : EntryWorld M) :
    Safe m (entryDiscipline store) (fun a _ => result = .ok a) (fun e _ => result = .error e)
      (liftEntry result : EntryAction R α) s := by
  cases result with
  | ok a => rfl
  | error e => rfl

end Discipline

section Claimed

variable {O : Type} {R : O → Type} {M : Type} {store : ClaimStore O R M}
  {sha256 : String → String} {modelValidateJson : String → Option OperationResult}

/-- What a cancellation returns is what its key was claimed with, for its run. -/
def FromClaim (store : ClaimStore O R M) (sha256 : String → String)
    (modelValidateJson : String → Option OperationResult) (runId idempotencyKey : String)
    (result : OperationResult) (t : EntryWorld M) : Prop :=
  ∃ entry, store.claimed t.claims (sha256 idempotencyKey) = some entry ∧ entry.runId = runId ∧
    claimedResult (claimingWith store modelValidateJson) runId entry.result = .ok result

theorem FromClaim.mono {runId idempotencyKey : String} {result : OperationResult}
    {s t : EntryWorld M}
    (h : FromClaim store sha256 modelValidateJson runId idempotencyKey result s)
    (hle : (entryDiscipline store).le s t) :
    FromClaim store sha256 modelValidateJson runId idempotencyKey result t := by
  obtain ⟨entry, hclaimed, hrest⟩ := h
  exact ⟨entry, store.claimed_mono _ _ _ _ hle.2 hclaimed, hrest⟩

/-- One result for one key. -/
theorem FromClaim.unique {runId runId' idempotencyKey : String} {result result' : OperationResult}
    {t : EntryWorld M} (h : FromClaim store sha256 modelValidateJson runId idempotencyKey result t)
    (h' : FromClaim store sha256 modelValidateJson runId' idempotencyKey result' t) :
    result = result' := by
  obtain ⟨entry, hclaimed, rfl, hresult⟩ := h
  obtain ⟨entry', hclaimed', rfl, hresult'⟩ := h'
  rw [hclaimed] at hclaimed'
  obtain rfl := Option.some.inj hclaimed'
  rw [hresult] at hresult'
  exact Except.ok.inj hresult'

theorem safe_claimCancellation (label : ℕ) (runId idempotencyKey : String)
    (planned : OperationResult) (s : EntryWorld M) :
    Safe (entryServices services store.faulty) (entryDiscipline store)
      (fun original t => ∃ entry, store.claimed t.claims (sha256 idempotencyKey) = some entry ∧
        entry.runId = runId ∧ entry.result = original)
      (fun _ _ => True)
      (claimCancellation sha256 (claimingWith store modelValidateJson) label runId idempotencyKey
        planned) s := by
  have hclaims := store.claims label (sha256 idempotencyKey) "cancel" runId
    (mutationResultBytes planned) s.claims
  refine Safe.tryCatch ((safe_onClaims hclaims).weaken ?_ fun _ _ _ h => h) fun e t _ _ => ?_
  · intro original t _ h
    obtain ⟨entry, hclaimed, -, hrunId, hresult⟩ := h
    exact ⟨entry, hclaimed, hrunId, hresult⟩
  · unfold recoverClaim
    split <;> trivial

theorem safe_cancel (registry : Registry) (label : ℕ) (runId idempotencyKey : String)
    (s : EntryWorld M) :
    Safe (entryServices services store.faulty) (entryDiscipline store)
      (FromClaim store sha256 modelValidateJson runId idempotencyKey) (fun _ _ => True)
      (cancel sha256 (claimingWith store modelValidateJson) registry label runId idempotencyKey)
      s := by
  unfold cancel
  split
  · trivial
  refine (safe_onRuns services_addsSnapshots (requireRun runId) s).bind fun stored t _ _ => ?_
  unfold cancelFound
  refine ((safe_liftEntry _ t).weaken (fun _ _ _ h => h) (fun _ _ _ _ => trivial)).bind
    fun _ u _ _ => ?_
  refine ((safe_liftEntry _ u).weaken (fun _ _ _ h => h) (fun _ _ _ _ => trivial)).bind
    fun planned v _ _ => ?_
  refine (safe_claimCancellation label runId idempotencyKey planned v).bind
    fun original w _ hclaimed => ?_
  obtain ⟨entry, hentry, hrunId, rfl⟩ := hclaimed
  refine ((safe_liftEntry _ w).weaken (fun _ _ _ h => h) (fun _ _ _ _ => trivial)).bind
    fun result x hx hresult => ?_
  have hfrom : FromClaim store sha256 modelValidateJson runId idempotencyKey result x :=
    ⟨entry, store.claimed_mono _ _ _ _ hx.2 hentry, hrunId, hresult⟩
  exact (safe_onRuns services_addsSnapshots (cancelOnce sha256 registry runId) x).bind
    fun _ y hy _ => hfrom.mono hy

/-- What each call promises of what it returns. -/
def Returns (store : ClaimStore O R M) (sha256 : String → String)
    (modelValidateJson : String → Option OperationResult) (call : EntryCall) (out : EntryOutcome)
    (t : EntryWorld M) : Prop :=
  ∀ runId idempotencyKey, call.entry = .cancel runId idempotencyKey →
    ∃ result, out = .mutation result ∧
      FromClaim store sha256 modelValidateJson runId idempotencyKey result t

theorem returns_stable (call : EntryCall) :
    Stable (entryDiscipline store) (Returns store sha256 modelValidateJson call) := by
  intro out s t hle h runId idempotencyKey hcall
  obtain ⟨result, hout, hfrom⟩ := h runId idempotencyKey hcall
  exact ⟨result, hout, hfrom.mono hle⟩

theorem safe_enter (call : EntryCall) (s : EntryWorld M) :
    Safe (entryServices services store.faulty) (entryDiscipline store)
      (Returns store sha256 modelValidateJson call) (fun _ _ => True)
      (enter sha256 (claimingWith store modelValidateJson) call) s := by
  have hruns : ∀ {α : Type} (p : Action α) (out : α → EntryOutcome),
      (∀ runId idempotencyKey, call.entry ≠ .cancel runId idempotencyKey) →
      Safe (entryServices services store.faulty) (entryDiscipline store)
        (Returns store sha256 modelValidateJson call) (fun _ _ => True)
        (onRuns p >>= fun a => .ret (out a) : EntryAction R EntryOutcome) s := by
    intro α p out hother
    refine (safe_onRuns services_addsSnapshots p s).bind fun a t _ _ => ?_
    intro runId idempotencyKey hcall
    exact absurd hcall (hother runId idempotencyKey)
  unfold enter
  cases hentry : call.entry with
  | start submission =>
    exact hruns _ (fun started : StoredRun × RunState => .status started.1 started.2)
      (by simp [hentry])
  | cancel runId idempotencyKey =>
    refine (safe_cancel call.registry call.label runId idempotencyKey s).bind
      fun result t _ hfrom => ?_
    intro runId' idempotencyKey' hcall
    rw [hentry] at hcall
    cases hcall
    exact ⟨result, rfl, hfrom⟩
  | reconcile stored => exact hruns _ .run (by simp [hentry])
  | dispatch submission plan now => exact hruns _ .run (by simp [hentry])
  | dispatchStored stored plan now => exact hruns _ .run (by simp [hentry])

/-- Every live call of a run keeps to its promise. -/
theorem Reached.poolSafe {events} {cfg : EntryConfig R M}
    (h : Reached store sha256 modelValidateJson events cfg) :
    PoolSafe (entryServices services store.faulty) (entryDiscipline store)
      (Returns store sha256 modelValidateJson) (fun _ _ _ => True) cfg :=
  (Run.poolSafe h returns_stable (fun _ _ _ _ _ _ => trivial) (fun cfg _ call _ _ =>
    safe_enter call cfg.state) (PoolSafe.start store.empty_inv)).1

theorem same_result {events} {cfg : EntryConfig R M}
    (h : Reached store sha256 modelValidateJson events cfg) {i j : ℕ} {first second : EntryCall}
    {runId runId' idempotencyKey : String} {result result' : EntryOutcome}
    (hfirst : first.entry = .cancel runId idempotencyKey)
    (hsecond : second.entry = .cancel runId' idempotencyKey)
    (hreturned : Event.finished i first (.ok result) ∈ events)
    (hreturned' : Event.finished j second (.ok result') ∈ events) : result = result' := by
  have hfinished : ∀ k call out, Event.finished k call (.ok out) ∈ events →
      Returns store sha256 modelValidateJson call out cfg.state := by
    intro k call out hmem
    exact (Run.finished h returns_stable (fun _ _ _ _ _ _ => trivial) (fun cfg _ call _ _ =>
      safe_enter call cfg.state) (PoolSafe.start store.empty_inv) hmem).1 out rfl
  obtain ⟨value, rfl, hfrom⟩ := hfinished i first result hreturned _ _ hfirst
  obtain ⟨value', rfl, hfrom'⟩ := hfinished j second result' hreturned' _ _ hsecond
  rw [hfrom.unique hfrom']

end Claimed

section OtherRun

variable {O : Type} {R : O → Type} {M : Type} {store : ClaimStore O R M}
  {sha256 : String → String} {modelValidateJson : String → Option OperationResult}
  {runs : Machine Request Answer World} {claims : Machine O R M} {registry : Registry} {label : ℕ}
  {runId idempotencyKey : String} {α : Type}

theorem only_onClaims (p : Prog O R RunStoreError α) :
    (onClaims p : EntryAction R α).Only EntryRequest.LeavesRuns := by
  induction p with
  | ret a => trivial
  | raise e => trivial
  | call o next ih => exact ⟨trivial, ih⟩

/-- From the current state on a program changes no run, returns nothing, and raises as told. -/
abbrev Refuses (store : ClaimStore O R M) (runs : Machine Request Answer World)
    (claims : Machine O R M) (E : LifecycleError → EntryWorld M → Prop) (p : EntryAction R α)
    (s : EntryWorld M) : Prop :=
  Guarded (entryServices runs claims) (entryDiscipline store) (fun o _ _ _ _ => o.LeavesRuns)
    (fun _ _ => False) E p s

theorem refuses_bind {E : LifecycleError → EntryWorld M → Prop} {p : EntryAction R α} {β : Type}
    {f : α → EntryAction R β} {s : EntryWorld M} (hp : Refuses store runs claims E p s) :
    Refuses store runs claims E (p >>= f) s :=
  hp.bind (fun _ _ _ _ _ h => h) fun _ _ _ h => h.elim

/-- A claim that cannot succeed. -/
theorem refuses_claimCancellation {E : LifecycleError → EntryWorld M → Prop}
    {raises : RunStoreError → M → Prop} {planned : OperationResult} {s : EntryWorld M}
    (hclaim : Safe claims store.discipline (fun _ _ => False) raises
      (store.claimMutation label (sha256 idempotencyKey) "cancel" runId
        (mutationResultBytes planned)) s.claims)
    (hraise : ∀ e t, (entryDiscipline store).le s t → raises e t.claims →
      ∀ e', recoverClaim (R := R) (.store e) = .raise e' → E e' t) :
    Refuses store runs claims E (claimCancellation sha256 (claimingWith store modelValidateJson)
      label runId idempotencyKey planned) s := by
  have honly : ∀ e, (recoverClaim e : EntryAction R String).Only EntryRequest.LeavesRuns := by
    intro e
    unfold recoverClaim
    split <;> trivial
  refine ((only_onClaims _).tryCatch honly).guarded ?_
  refine (safe_onClaims hclaim).tryCatch fun e t hle h => ?_
  obtain ⟨e, rfl, he⟩ := h
  cases e with
  | idempotencyConflict message => exact hraise _ t hle he _ rfl
  | failure message => exact hraise _ t hle he _ rfl
  | conflict message => exact hraise _ t hle he _ rfl
  | corruption message => exact hraise _ t hle he _ rfl

theorem refuses_cancelFound {E : LifecycleError → EntryWorld M → Prop} {stored : StoredRun}
    {s : EntryWorld M} {raises : OperationResult → RunStoreError → M → Prop}
    (hprecondition : ∀ e, validateCancelPreconditions registry stored.record = .error e → E e s)
    (hplanned : ∀ e, plannedCancelResult stored.record = .error e → E (.contract e) s)
    (hclaim : ∀ planned, plannedCancelResult stored.record = .ok planned →
      Safe claims store.discipline (fun _ _ => False) (raises planned)
        (store.claimMutation label (sha256 idempotencyKey) "cancel" runId
          (mutationResultBytes planned)) s.claims)
    (hraise : ∀ planned, plannedCancelResult stored.record = .ok planned →
      ∀ e t, (entryDiscipline store).le s t → raises planned e t.claims →
      ∀ e', recoverClaim (R := R) (.store e) = .raise e' → E e' t) :
    Refuses store runs claims E (cancelFound sha256 (claimingWith store modelValidateJson) registry
      label runId idempotencyKey stored) s := by
  unfold cancelFound
  cases hvalid : validateCancelPreconditions registry stored.record with
  | error e => exact hprecondition e hvalid
  | ok _ =>
    cases hplan : plannedCancelResult stored.record with
    | error e => exact hplanned e hplan
    | ok planned =>
      show Refuses store runs claims E (claimCancellation sha256
        (claimingWith store modelValidateJson) label runId idempotencyKey planned >>= _) s
      exact refuses_bind (refuses_claimCancellation (hclaim planned hplan) (hraise planned hplan))

/-- A cancellation, from what the read of its run may answer. -/
theorem refuses_cancel {E : LifecycleError → EntryWorld M → Prop} {s : EntryWorld M}
    (hruns : AddsSnapshots runs)
    (hmalformed : GraphStore.isIdempotencyKey idempotencyKey = false →
      ∀ message, E (.conflict message) s)
    (hread : ∀ t t', (entryDiscipline store).le s t' →
      ∀ answer : Except RunStoreError (Option StoredRun), runs.step (.get runId) t answer t'.runs →
      (∀ e, answer = .error e → ∀ message, E (.dependency message) t') ∧
      (answer = .ok none → ∀ message, E (.notFound message) t') ∧
      ∀ stored, answer = .ok (some stored) → Refuses store runs claims E
        (cancelFound sha256 (claimingWith store modelValidateJson) registry label runId
          idempotencyKey stored) t') :
    Refuses store runs claims E (cancel sha256 (claimingWith store modelValidateJson) registry label
      runId idempotencyKey) s := by
  unfold cancel
  split
  next hkey =>
    rw [Bool.not_eq_true'] at hkey
    exact hmalformed hkey _
  intro t ht hinv answer t' hstep
  obtain ⟨hget, hclaims⟩ := hstep
  have hle : (entryDiscipline store).le t t' := by
    refine ⟨hruns _ _ _ _ hget, ?_⟩
    rw [hclaims]
    exact store.discipline.refl _
  have hinv' : (entryDiscipline store).inv t' := by
    show store.discipline.inv t'.claims
    rw [hclaims]
    exact hinv
  obtain ⟨herror, hmissing, hfound⟩ :=
    hread t.runs t' ((entryDiscipline store).trans _ _ _ ht hle) answer hget
  refine ⟨hinv', hle, trivial, ?_⟩
  cases answer with
  | error e => exact herror e rfl _
  | ok found =>
    cases found with
    | none => exact hmissing rfl _
    | some stored => exact hfound stored rfl

/-- The key is claimed for another run. -/
def ClaimedForOther (store : ClaimStore O R M) (sha256 : String → String)
    (runId idempotencyKey : String) (s : EntryWorld M) : Prop :=
  ∃ entry, store.claimed s.claims (sha256 idempotencyKey) = some entry ∧ entry.runId ≠ runId

theorem ClaimedForOther.mono {s t : EntryWorld M}
    (h : ClaimedForOther store sha256 runId idempotencyKey s)
    (hle : (entryDiscipline store).le s t) :
    ClaimedForOther store sha256 runId idempotencyKey t := by
  obtain ⟨entry, hclaimed, hother⟩ := h
  exact ⟨entry, store.claimed_mono _ _ _ _ hle.2 hclaimed, hother⟩

/-- Such a claim returns nothing. -/
theorem ClaimedForOther.claimFails {s : EntryWorld M}
    (h : ClaimedForOther store sha256 runId idempotencyKey s) (result : String) :
    Safe store.faulty store.discipline (fun _ _ => False) (fun _ _ => True)
      (store.claimMutation label (sha256 idempotencyKey) "cancel" runId result) s.claims := by
  obtain ⟨entry, hclaimed, hother⟩ := h
  refine (store.claims label (sha256 idempotencyKey) "cancel" runId result s.claims).weaken ?_
    fun _ _ _ h => h
  intro original t hle h
  obtain ⟨entry', hclaimed', -, hrunId, -⟩ := h
  rw [store.claimed_mono _ _ _ _ hle hclaimed] at hclaimed'
  obtain rfl := Option.some.inj hclaimed'
  exact hother hrunId

theorem refuses_cancel_other {s : EntryWorld M}
    (h : ClaimedForOther store sha256 runId idempotencyKey s) :
    Refuses store services store.faulty (fun _ _ => True)
      (cancel sha256 (claimingWith store modelValidateJson) registry label runId idempotencyKey)
      s := by
  apply refuses_cancel services_addsSnapshots
  · intro _ _
    trivial
  · intro t t' hle answer _
    refine ⟨fun _ _ _ => trivial, fun _ _ => trivial, ?_⟩
    intro stored _
    exact refuses_cancelFound (fun _ _ => trivial) (fun _ _ => trivial)
      (fun planned _ => (h.mono hle).claimFails _) (fun _ _ _ _ _ _ _ _ => trivial)

theorem Seen.mono {w later : World} {found : Option RunRecord} (h : Seen w runId found)
    (hle : w.snapshots <:+ later.snapshots) : Seen later runId found := by
  intro record hrecord
  obtain ⟨etag, author, hrecorded⟩ := h record hrecord
  exact ⟨etag, author, recorded_mono hle hrecorded⟩

/-- The key is reported, or there was another reason to refuse. -/
def Reported (store : ClaimStore O R M) (sha256 : String → String) (registry : Registry)
    (runId idempotencyKey : String) (e : LifecycleError) (t : EntryWorld M) : Prop :=
  (∃ message, e = .idempotencyConflict message) ∨
    ∃ found, Seen t.runs runId found ∧ Refused store sha256 registry runId idempotencyKey found

/-- Such a claim is refused for its key, if the store takes its arguments. -/
theorem ClaimedForOther.conflicts {s : EntryWorld M}
    (h : ClaimedForOther store sha256 runId idempotencyKey s) (result : String) :
    Safe store.answering store.discipline (fun _ _ => False)
      (fun e _ => store.accepts (sha256 idempotencyKey) "cancel" runId result →
        ∃ message, e = .idempotencyConflict message)
      (store.claimMutation label (sha256 idempotencyKey) "cancel" runId result) s.claims := by
  by_cases haccepts : store.accepts (sha256 idempotencyKey) "cancel" runId result
  · obtain ⟨entry, hclaimed, hother⟩ := h
    exact (store.conflicts label _ _ runId result s.claims entry haccepts hclaimed hother).weaken
      (fun _ _ _ h => h) (fun _ _ _ h _ => h)
  · refine (Safe.of_machine store.answering_faulty (h.claimFails result)).weaken
      (fun _ _ _ h => h) ?_
    intro e t _ _ haccepts'
    exact absurd haccepts' haccepts

theorem refuses_cancel_reported {s : EntryWorld M}
    (h : ClaimedForOther store sha256 runId idempotencyKey s) :
    Refuses store answering store.answering (Reported store sha256 registry runId idempotencyKey)
      (cancel sha256 (claimingWith store modelValidateJson) registry label runId idempotencyKey)
      s := by
  apply refuses_cancel answering_addsSnapshots
  · intro hkey message
    exact .inr ⟨none, by simp [Seen], .malformed none hkey⟩
  · intro t t' hle answer hget
    obtain ⟨oracle, hserved⟩ := hget
    obtain ⟨hanswer, hruns⟩ := Prod.mk.inj hserved
    refine ⟨?_, ?_, ?_⟩
    · rintro e rfl
      cases hanswer
    · intro _ _
      exact .inr ⟨none, by simp [Seen], .missing⟩
    · rintro stored rfl
      have hseen : Seen t'.runs runId (some stored.record) := by
        obtain ⟨version, hcurrent, heq⟩ := Option.map_eq_some_iff.mp (Except.ok.inj hanswer)
        obtain ⟨author, hrecorded⟩ := recorded_of_current hcurrent
        intro record hrecord
        rw [← Option.some.inj hrecord, ← heq, ← hruns]
        exact ⟨version.etag, author, hrecorded⟩
      refine refuses_cancelFound ?_ ?_ (fun planned _ => (h.mono hle).conflicts _) ?_
      · intro e he
        exact .inr ⟨_, hseen, .precondition _ e he⟩
      · intro e he
        exact .inr ⟨_, hseen, .unplanned _ e he⟩
      · intro planned hplanned e u hu he e' hraise
        by_cases haccepts : store.accepts (sha256 idempotencyKey) "cancel" runId
            (mutationResultBytes planned)
        · obtain ⟨message, rfl⟩ := he haccepts
          cases hraise
          exact .inl ⟨_, rfl⟩
        · exact .inr ⟨_, hseen.mono hu.1, .unaccepted _ planned hplanned haccepts⟩

end OtherRun

section Idempotency

variable {O : Type} {R : O → Type} {M : Type} {store : ClaimStore O R M}
  {sha256 : String → String} {modelValidateJson : String → Option OperationResult}
  {runs : Machine Request Answer World} {claims : Machine O R M}

/-- What is left of a call that has just been issued. -/
theorem issued_live {cfg issued : EntryConfig R M} {i : ℕ} {call : EntryCall}
    (h : EntryStep store sha256 modelValidateJson runs claims cfg (.issued i call) issued) :
    issued.pool i = some (call, enter sha256 (claimingWith store modelValidateJson) call) ∧
      issued.state = cfg.state := by
  cases h with
  | issue _ _ free => exact ⟨by simp, rfl⟩

theorem IssuedForOther.refuses {cfg issued : EntryConfig R M} {i : ℕ} {call : EntryCall}
    {runId idempotencyKey : String} {E : LifecycleError → EntryWorld M → Prop}
    (h : IssuedForOther store sha256 modelValidateJson cfg i call runId idempotencyKey issued)
    (hcancel : ClaimedForOther store sha256 runId idempotencyKey issued.state →
      Refuses store runs claims E (cancel sha256 (claimingWith store modelValidateJson)
        call.registry call.label runId idempotencyKey) issued.state) :
    Refuses store runs claims E (enter sha256 (claimingWith store modelValidateJson) call)
      issued.state := by
  have hclaimed : ClaimedForOther store sha256 runId idempotencyKey issued.state := by
    rw [(issued_live h.step).2]
    exact h.claimed
  unfold enter
  rw [h.cancellation]
  exact refuses_bind (hcancel hclaimed)

theorem Reached.issued {events} {cfg issued : EntryConfig R M} {i : ℕ} {call : EntryCall}
    (h : Reached store sha256 modelValidateJson events cfg)
    (hstep : EntryStep store sha256 modelValidateJson services store.faulty cfg (.issued i call)
      issued) :
    PoolSafe (entryServices services store.faulty) (entryDiscipline store)
      (Returns store sha256 modelValidateJson) (fun _ _ _ => True) issued :=
  (h.poolSafe.step returns_stable (fun _ _ _ _ _ _ => trivial)
    (fun _ call _ _ => safe_enter call cfg.state) hstep).1

theorem other_run {events} {cfg issued last : EntryConfig R M} {i : ℕ} {call : EntryCall}
    {runId idempotencyKey : String} {later}
    (h : Reached store sha256 modelValidateJson events cfg)
    (hissued : IssuedForOther store sha256 modelValidateJson cfg i call runId idempotencyKey issued)
    (run : EntryRun store sha256 modelValidateJson services store.faulty
      (Follows i fun _ _ => True) issued later last) :
    (∀ d o answer, Event.performed i d o answer ∈ later → o.LeavesRuns) ∧
      ∀ d out after, EntryStep store sha256 modelValidateJson services store.faulty last
        (.finished i d out) after → ∃ e, out = .error e := by
  obtain ⟨-, hperformed, p, hlive, hguarded⟩ := run.follow_guarded (fun _ _ _ _ _ h => h)
    returns_stable (fun _ _ _ _ _ _ => trivial) (fun _ _ _ _ h => h) (fun _ _ _ _ _ => trivial)
    (fun s call _ => safe_enter call s) (h.issued hissued.step) (issued_live hissued.step).1
    (hissued.refuses refuses_cancel_other)
  refine ⟨hperformed, ?_⟩
  intro d out after hfinished
  cases out with
  | error e => exact ⟨e, rfl⟩
  | ok value => exact ((hguarded.finished hlive hfinished).1 value rfl).elim

theorem poolSafe_answering {cfg : EntryConfig R M}
    (h : PoolSafe (entryServices services store.faulty) (entryDiscipline store)
      (Returns store sha256 modelValidateJson) (fun _ _ _ => True) cfg) :
    PoolSafe (entryServices answering store.answering) (entryDiscipline store)
      (Returns store sha256 modelValidateJson) (fun _ _ _ => True) cfg :=
  ⟨h.1, fun i c p hlive => (h.2 i c p hlive).of_machine
    fun _ _ _ _ hstep => answering_entryServices hstep⟩

theorem other_run_reported {events} {cfg issued last : EntryConfig R M} {i : ℕ} {call : EntryCall}
    {runId idempotencyKey : String} {later}
    (h : Reached store sha256 modelValidateJson events cfg)
    (hissued : IssuedForOther store sha256 modelValidateJson cfg i call runId idempotencyKey issued)
    (run : EntryRun store sha256 modelValidateJson answering store.answering
      (Follows i fun _ _ => True) issued later last) {d : EntryCall} {out after}
    (hfinished : EntryStep store sha256 modelValidateJson answering store.answering last
      (.finished i d out) after) :
    (∃ message, out = .error (.idempotencyConflict message)) ∨
      ∃ found, Seen last.state.runs runId found ∧
        Refused store sha256 call.registry runId idempotencyKey found := by
  have hstable : Stable (entryDiscipline store)
      (Reported store sha256 call.registry runId idempotencyKey) := by
    rintro e s t hle (hkey | ⟨found, hseen, hrefused⟩)
    · exact .inl hkey
    · exact .inr ⟨found, hseen.mono hle.1, hrefused⟩
  obtain ⟨-, -, p, hlive, hguarded⟩ := run.follow_guarded (fun _ _ _ _ _ h => h)
    returns_stable (fun _ _ _ _ _ _ => trivial) (fun _ _ _ _ h => h) hstable
    (fun s call _ => (safe_enter call s).of_machine
      fun _ _ _ _ hstep => answering_entryServices hstep)
    (poolSafe_answering (h.issued hissued.step)) (issued_live hissued.step).1
    (hissued.refuses refuses_cancel_reported)
  obtain ⟨hreturned, hraised⟩ := hguarded.finished hlive hfinished
  cases out with
  | ok value => exact (hreturned value rfl).elim
  | error e =>
    rcases hraised e rfl with ⟨message, rfl⟩ | hother
    · exact .inl ⟨message, rfl⟩
    · exact .inr hother

/-- A cancellation that performs an operation on claims has found its run in order. -/
theorem claim_after_preconditions {registry : Registry} {label : ℕ} {runId idempotencyKey : String}
    {wrap : OperationResult → EntryOutcome} {done : List (Sigma (EntryAnswer R))} {o : O}
    {next : R o → EntryAction R EntryOutcome}
    (h : (cancel sha256 (claimingWith store modelValidateJson) registry label runId
      idempotencyKey >>= fun result => .ret (wrap result)).Reaches done (.call (.claim o) next)) :
    ∃ (stored : StoredRun) (rest : List (Sigma (EntryAnswer R))),
      done = ⟨.run (.get runId), .ok (some stored)⟩ :: rest ∧
      validateCancelPreconditions registry stored.record = .ok () := by
  unfold cancel at h
  split at h
  · cases h.of_raise
  obtain ⟨-, heq⟩ | ⟨answer, rest, rfl, hrest⟩ := h.of_call
  · cases heq
  cases answer with
  | error e => cases hrest.of_raise
  | ok found =>
    cases found with
    | none => cases hrest.of_raise
    | some stored =>
      refine ⟨stored, rest, rfl, ?_⟩
      cases hvalid : validateCancelPreconditions registry stored.record with
      | ok _ => rfl
      | error e =>
        have hraise : (cancelFound sha256 (claimingWith store modelValidateJson) registry label
            runId idempotencyKey stored >>= fun result => .ret (wrap result)) = .raise e := by
          unfold cancelFound
          rw [hvalid]
          rfl
        have hrest : (cancelFound sha256 (claimingWith store modelValidateJson) registry label
            runId idempotencyKey stored >>= fun result => .ret (wrap result)).Reaches rest
              (.call (.claim o) next) := hrest
        rw [hraise] at hrest
        cases hrest.of_raise

theorem cancelIdempotency : CancelIdempotency store sha256 modelValidateJson where
  same events cfg h i j first second runId runId' idempotencyKey result result' hfirst hsecond
      hreturned hreturned' := by
    exact same_result h hfirst hsecond hreturned hreturned'
  other events cfg h i call runId idempotencyKey issued hissued later last run :=
    other_run h hissued run
  reported events cfg h i call runId idempotencyKey issued hissued later last run d out after
      hfinished := other_run_reported h hissued run hfinished
  unclaimed events cfg h i call runId idempotencyKey o answer after hcall hstep := by
    cases hstep with
    | perform _ _ _ next _ _ turn done =>
      have hreaches := Run.reaches h turn
      unfold enter at hreaches
      rw [hcall] at hreaches
      exact claim_after_preconditions hreaches

theorem cancel_idempotency (codec : ResultCodec) (sha256 : String → String)
    (modelValidateJson : String → Option OperationResult) :
    CancelIdempotency (s3Claims codec) sha256 modelValidateJson ∧
      CancelIdempotency (postgresqlClaims codec) sha256 modelValidateJson :=
  ⟨cancelIdempotency, cancelIdempotency⟩

end Idempotency

section Missing

/-- A library that reads every text but the empty one as it stands. -/
def plainCodec : ResultCodec where
  loads text := if text = "" then .invalid else .mapping text
  empty := rfl
  canonical text value h := by
    split at h
    · cases h
    next hne =>
      cases h
      exact if_neg hne

/-- Every operation is answered. -/
def answerEntry : (o : EntryRequest (Op String MutationEntry)) →
    EntryWorld (History String MutationEntry) →
    EntryAnswer (fun o => Reply (Payload o)) o × EntryWorld (History String MutationEntry)
  | .run o, w => ((serve canceledOracle o w.runs).1, ⟨(serve canceledOracle o w.runs).2, w.claims⟩)
  | .claim o, w => ((exec o w.claims).1, ⟨w.runs, (exec o w.claims).2⟩)

theorem answerEntry_step (o : EntryRequest (Op String MutationEntry))
    (w : EntryWorld (History String MutationEntry)) :
    (entryServices answering (s3Claims plainCodec).answering).step o w (answerEntry o w).1
      (answerEntry o w).2 := by
  cases o with
  | run o => exact ⟨⟨canceledOracle, rfl⟩, rfl⟩
  | claim o => exact ⟨rfl, rfl⟩

def claimingCancel : EntryCall :=
  ⟨exampleRegistry, 1, .cancel "run-cb6b93ab8cf7aee4db55b62f" "cancel-1"⟩

def missingCancel : EntryCall := ⟨exampleRegistry, 2, .cancel "run-0" "cancel-1"⟩

theorem enter_missingCancel
    (claiming : Claiming (Op String MutationEntry) fun o => Reply (Payload o)) :
    ∃ next, enter digest claiming missingCancel = .call (.run (.get "run-0")) next ∧
      next (Except.ok none : Except RunStoreError (Option StoredRun)) =
        .raise (.notFound "The run does not exist.") := by
  have hkey : ¬ (!GraphStore.isIdempotencyKey "cancel-1") = true := by decide
  unfold enter missingCancel cancel
  dsimp only
  rw [if_neg hkey]
  exact ⟨_, rfl, rfl⟩

/-- A cancellation of a run that does not exist is told so, whoever has claimed its key. -/
theorem key_of_other_run_unreported :
    ¬ ∀ (codec : ResultCodec) (sha256 : String → String)
      (modelValidateJson : String → Option OperationResult) events cfg,
      Reached (s3Claims codec) sha256 modelValidateJson events cfg →
      ∀ i call runId idempotencyKey issued,
        IssuedForOther (s3Claims codec) sha256 modelValidateJson cfg i call runId idempotencyKey
          issued →
      ∀ later last, EntryRun (s3Claims codec) sha256 modelValidateJson answering
          (s3Claims codec).answering (Follows i fun _ _ => True) issued later last →
      ∀ d out after, EntryStep (s3Claims codec) sha256 modelValidateJson answering
          (s3Claims codec).answering last (.finished i d out) after →
        ∃ message, out = .error (.idempotencyConflict message) := by
  intro hall
  have hplay : (play (fun o w => some (answerEntry o w))
      (enter digest (claimingWith (s3Claims plainCodec) fun _ => none)) (fun _ _ => true)
      (.start ⟨World.empty, []⟩)
      [.issue 0 ⟨exampleRegistry, 0, .dispatch exampleSubmission examplePlan 1⟩, .exec 0,
        .issue 1 claimingCancel, .exec 1, .exec 1]).any
      (fun last => (last.pool 2).isNone &&
        decide (last.state.runs.snapshots.map (·.name) = ["run-cb6b93ab8cf7aee4db55b62f"]) &&
        decide (((current last.state.claims (digest "cancel-1")).map (·.value.runId)) =
          some "run-cb6b93ab8cf7aee4db55b62f")) = true := by decide +kernel
  obtain ⟨cfg, hcfg, hstate⟩ := (Option.any_eq_true _ _).mp hplay
  simp only [Bool.and_eq_true, decide_eq_true_eq] at hstate
  obtain ⟨⟨hfree, hsnapshots⟩, hclaimed⟩ := hstate
  rw [Option.isNone_iff_eq_none] at hfree
  obtain ⟨⟨etag, entry⟩, hcurrent, hrunId⟩ := Option.map_eq_some_iff.mp hclaimed
  obtain ⟨events, hrun⟩ : ∃ events,
      Reached (s3Claims plainCodec) digest (fun _ => none) events cfg :=
    play_run (fun o w answer w' h => by
      obtain ⟨rfl, rfl⟩ := Prod.mk.inj (Option.some.inj h)
      exact answering_entryServices (answerEntry_step o w)) (fun _ _ _ => trivial) hcfg
  obtain ⟨next, hcall, hnext⟩ :=
    enter_missingCancel (claimingWith (s3Claims plainCodec) fun _ => none)
  have hmissing :
      serve canceledOracle (.get "run-0") cfg.state.runs = (.ok none, cfg.state.runs) := by
    have hnone : current cfg.state.runs.snapshots "run-0" = none := by
      cases hversion : current cfg.state.runs.snapshots "run-0" with
      | none => rfl
      | some version =>
        obtain ⟨author, hrecorded⟩ := recorded_of_current hversion
        have hname := List.mem_map_of_mem (f := (·.name)) (mem_of_recorded hrecorded)
        rw [hsnapshots] at hname
        simp at hname
    simp [serve, hnone]
  let issued : EntryConfig (fun o => Reply (Payload o)) (History String MutationEntry) :=
    ⟨cfg.state, Function.update cfg.pool 2 (some (missingCancel, .call (.run (.get "run-0")) next))⟩
  let last : EntryConfig (fun o => Reply (Payload o)) (History String MutationEntry) :=
    ⟨cfg.state, Function.update issued.pool 2 (some (missingCancel, next (.ok none)))⟩
  have hissue : EntryStep (s3Claims plainCodec) digest (fun _ => none) services
      (s3Claims plainCodec).faulty cfg (.issued 2 missingCancel) issued := by
    have hstep : EntryStep (s3Claims plainCodec) digest (fun _ => none) services
        (s3Claims plainCodec).faulty cfg (.issued 2 missingCancel) _ :=
      .issue cfg 2 missingCancel hfree
    rw [hcall] at hstep
    exact hstep
  have hissued : IssuedForOther (s3Claims plainCodec) digest (fun _ => none) cfg 2 missingCancel
      "run-0" "cancel-1" issued := by
    refine ⟨rfl, ⟨entry, ?_, ?_⟩, hissue⟩
    · show (current cfg.state.claims (digest "cancel-1")).map Version.value = some entry
      rw [hcurrent]
      rfl
    · rw [hrunId]
      decide
  have hget : EntryStep (s3Claims plainCodec) digest (fun _ => none) answering
      (s3Claims plainCodec).answering issued
      (.performed 2 missingCancel (.run (.get "run-0")) (.ok none)) last :=
    .perform issued 2 missingCancel (.run (.get "run-0")) next (.ok none) cfg.state
      (by simp [issued]) ⟨⟨canceledOracle, hmissing⟩, rfl⟩
  have hlater : EntryRun (s3Claims plainCodec) digest (fun _ => none) answering
      (s3Claims plainCodec).answering (Follows 2 fun _ _ => True) issued _ last :=
    .snoc .refl (by intro _; trivial) hget
  obtain ⟨message, hmessage⟩ := hall plainCodec digest (fun _ => none) events cfg hrun 2
    missingCancel "run-0" "cancel-1" issued hissued _ last hlater missingCancel
    (.error (.notFound "The run does not exist.")) _
    (.finish last 2 missingCancel (next (.ok none)) _ (by simp [last]) (by rw [hnext]; rfl))
  cases hmessage

end Missing

end Dander.Lifecycle
