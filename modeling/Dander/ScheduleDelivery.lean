import Dander.RunLifecycleSafety
import Dander.ScheduleConsumer
import Mathlib.Data.List.Forall2

/-!
# One run for each scheduled occurrence
-/
namespace Dander.Consumer

open Interleaving ObjectStore Orchestration Schedule
open Lifecycle (World Registry LifecycleError)

section Runs

/-- The run services with the log of claims. -/
def loggedServices : Machine Lifecycle.Request Lifecycle.Answer RunLog where
  step o log answer log' :=
    Lifecycle.services.step o log.world answer log'.world ∧
      log'.claims = RunLog.note log.claims o

variable (legit : RunRecord → Prop)

/-- Only legitimate records were claimed, and every snapshot continues one of them. -/
structure Traced (log : RunLog) : Prop where
  writes : ∀ write ∈ log.world.snapshots, ∃ record, write.value = some record ∧
    record.runId = write.name ∧ ∃ claim, legit claim ∧ claim.identity = record.identity
  claims : ∀ claim ∈ log.claims, legit claim

def runDiscipline : Discipline RunLog where
  inv := Traced legit
  le log later := log.world.snapshots <:+ later.world.snapshots
  refl _ := List.suffix_refl _
  trans _ _ _ hab hbc := hab.trans hbc

/-- A run with this identifier and submission is stored, now or in an earlier snapshot. -/
def Durable (runId submissionSha256 : String) (log : RunLog) : Prop :=
  ∃ write ∈ log.world.snapshots, ∃ record, write.value = some record ∧ record.runId = runId ∧
    record.submissionSha256 = submissionSha256

variable {legit}

theorem Durable.mono {runId submissionSha256 : String} {log later : RunLog}
    (h : Durable runId submissionSha256 log)
    (hle : log.world.snapshots <:+ later.world.snapshots) :
    Durable runId submissionSha256 later := by
  obtain ⟨write, hmem, hrest⟩ := h
  exact ⟨write, hle.subset hmem, hrest⟩

/-- A snapshot as the store gave it out. -/
def Held (stored : StoredRun) (log : RunLog) : Prop :=
  ∃ name author, recorded log.world.snapshots stored.revision =
    some ⟨name, some stored.record, author⟩

theorem Held.mono {stored : StoredRun} {log later : RunLog} (h : Held stored log)
    (hle : log.world.snapshots <:+ later.world.snapshots) : Held stored later := by
  obtain ⟨name, author, hrecorded⟩ := h
  exact ⟨name, author, recorded_mono hle hrecorded⟩

/-- What a worker has to know of the requests that write snapshots. -/
def Founded (legit : RunRecord → Prop) : Lifecycle.Request → RunLog → Prop
  | .claim record, _ => legit record
  | .save stored _, log => Held stored log
  | _, _ => True

/-- A new snapshot that continues a legitimate claim. -/
theorem Traced.write {log : RunLog} (h : Traced legit log) {record claim : RunRecord}
    {later : World} {claims : List RunRecord}
    (hlater : later.snapshots = ⟨record.runId, some record, 0⟩ :: log.world.snapshots)
    (hclaims : ∀ claim ∈ claims, legit claim) (hlegit : legit claim)
    (hsame : claim.identity = record.identity) : Traced legit ⟨later, claims⟩ := by
  refine ⟨?_, hclaims⟩
  intro write hmem
  rw [hlater] at hmem
  rcases List.mem_cons.mp hmem with rfl | hold
  · exact ⟨record, rfl, rfl, claim, hlegit, hsame⟩
  · exact h.writes write hold

theorem Traced.same {log : RunLog} (h : Traced legit log) {later : World}
    {claims : List RunRecord} (hlater : later.snapshots = log.world.snapshots)
    (hclaims : ∀ claim ∈ claims, legit claim) : Traced legit ⟨later, claims⟩ := by
  refine ⟨?_, hclaims⟩
  rw [hlater]
  exact h.writes

theorem Traced.note {log : RunLog} (h : Traced legit log) {o : Lifecycle.Request}
    (hfounded : Founded legit o log) : ∀ claim ∈ RunLog.note log.claims o, legit claim := by
  intro claim hmem
  cases o with
  | claim record =>
    rcases List.mem_cons.mp hmem with rfl | hold
    · exact hfounded
    · exact h.claims claim hold
  | _ => exact h.claims claim hmem

theorem serve_traced {log : RunLog} (h : Traced legit log) {o : Lifecycle.Request}
    (hfounded : Founded legit o log) (oracle : Lifecycle.Oracle) :
    Traced legit ⟨(Lifecycle.serve oracle o log.world).2, RunLog.note log.claims o⟩ ∧
      log.world.snapshots <:+ (Lifecycle.serve oracle o log.world).2.snapshots := by
  have hclaims := h.note hfounded
  cases o with
  | claim record =>
    simp only [Lifecycle.serve, World.claimed]
    split
    · exact ⟨h.write rfl hclaims hfounded rfl, List.suffix_cons _ _⟩
    · split
      · exact ⟨h.same rfl hclaims, List.suffix_refl _⟩
      · split <;> exact ⟨h.same rfl hclaims, List.suffix_refl _⟩
  | save stored record =>
    simp only [Lifecycle.serve, World.save]
    split
    · exact ⟨h.same rfl hclaims, List.suffix_refl _⟩
    next hsame =>
      split
      · obtain ⟨name, author, hrecorded⟩ := hfounded
        obtain ⟨held, hvalue, -, claim, hlegit, hidentity⟩ :=
          h.writes _ (mem_of_recorded hrecorded)
        simp only [Option.some.injEq] at hvalue
        subst hvalue
        rw [Bool.not_eq_true, Bool.not_eq_false'] at hsame
        exact ⟨h.write rfl hclaims hlegit (hidentity.trans (sameRunIdentity_iff.mp hsame)),
          List.suffix_cons _ _⟩
      · exact ⟨h.same rfl hclaims, List.suffix_refl _⟩
  | appendAttempt attempt =>
    simp only [Lifecycle.serve, World.appendAttempt]
    split
    · exact ⟨h.same rfl hclaims, List.suffix_refl _⟩
    · split <;> exact ⟨h.same rfl hclaims, List.suffix_refl _⟩
  | submitOrAdopt plan runId attemptId trigger =>
    simp only [Lifecycle.serve, World.submitOrAdopt]
    split <;> exact ⟨h.same rfl hclaims, List.suffix_refl _⟩
  | observe plan handle =>
    simp only [Lifecycle.serve, World.observe]
    split <;> exact ⟨h.same rfl hclaims, List.suffix_refl _⟩
  | get runId => exact ⟨h.same rfl hclaims, List.suffix_refl _⟩
  | cancel plan handle => exact ⟨h.same rfl hclaims, List.suffix_refl _⟩
  | clock => exact ⟨h.same rfl hclaims, List.suffix_refl _⟩

end Runs

section Starting

variable {legit : RunRecord → Prop} {sha256 : String → String} {α : Type} {s : RunLog}
variable {Q : α → RunLog → Prop} {E : LifecycleError → RunLog → Prop}

/-- One request of the run lifecycle. -/
theorem safe_logged {o : Lifecycle.Request} {next : Lifecycle.Answer o → Lifecycle.Action α}
    (hfounded : ∀ t, s.world.snapshots <:+ t.world.snapshots → Founded legit o t)
    (hnext : ∀ (t t' : RunLog) answer, s.world.snapshots <:+ t.world.snapshots →
      t.world.snapshots <:+ t'.world.snapshots → Traced legit t' →
      Lifecycle.services.step o t.world answer t'.world →
      Safe loggedServices (runDiscipline legit) Q E (next answer) t') :
    Safe loggedServices (runDiscipline legit) Q E (.call o next) s := by
  rintro t ht hinv answer ⟨world, claims⟩ ⟨hstep, hclaims⟩
  simp only at hclaims
  subst hclaims
  have hserve := serve_traced hinv (hfounded t ht)
  have hkept : Traced legit ⟨world, RunLog.note t.claims o⟩ ∧
      t.world.snapshots <:+ world.snapshots := by
    rcases hstep with ⟨oracle, heq⟩ | ⟨-, heq | ⟨oracle, heq⟩⟩
    · have hworld := congrArg Prod.snd heq
      simp only at hworld
      rw [← hworld]
      exact hserve oracle
    · simp only at heq
      rw [heq]
      exact ⟨⟨hinv.writes, hinv.note (hfounded t ht)⟩, List.suffix_refl _⟩
    · simp only at heq
      rw [heq]
      exact hserve oracle
  exact ⟨hkept.1, hkept.2, hnext t _ answer ht hkept.2 hkept.1 hstep⟩

theorem claimed_ok {w w' : World} {record : RunRecord} {claim : RunClaim}
    (h : w.claimed record = (.ok claim, w')) :
    (∃ author, recorded w'.snapshots claim.stored.revision =
      some ⟨record.runId, some claim.stored.record, author⟩) ∧
      claim.stored.record.submissionSha256 = record.submissionSha256 := by
  unfold World.claimed at h
  split at h
  · cases h
    exact ⟨⟨0, by simp [recorded]⟩, rfl⟩
  next version hcurrent =>
    split at h
    · cases h
    · split at h
      · cases h
      next hsubmission =>
        cases h
        obtain ⟨author, hrecorded⟩ := recorded_of_current hcurrent
        exact ⟨⟨author, hrecorded⟩, by simpa using hsubmission⟩

/-- Programs that promise nothing but to keep the discipline. -/
def Tidy (legit : RunRecord → Prop) (p : Lifecycle.Action α) (s : RunLog) : Prop :=
  Safe loggedServices (runDiscipline legit) (fun _ _ => True) (fun _ _ => True) p s

theorem tidy_liftStore {result : Except RunStoreError α} :
    Tidy legit (Lifecycle.liftStore result) s := by
  cases result <;> trivial

theorem tidy_submitAttempt {stored : StoredRun} {plan : ExecutionPlan} {now : ℤ} {number : ℕ}
    {attemptId : String} (hheld : Held stored s) :
    Tidy legit (Lifecycle.submitAttempt sha256 stored plan now number attemptId) s := by
  apply safe_logged
  · intros
    trivial
  · intro t t' appended ht ht' _ _
    cases appended with
    | error e => trivial
    | ok _ =>
      apply safe_logged
      · intros
        trivial
      · intro u u' submitted hu hu' _ _
        cases submitted with
        | none => trivial
        | some handle =>
          simp only
          split
          · trivial
          · cases transitionRun sha256 stored.record .running now _ with
            | error e => trivial
            | ok updated =>
              apply safe_logged
              · intro v hv
                exact hheld.mono (ht.trans (ht'.trans (hu.trans (hu'.trans hv))))
              · intros
                exact tidy_liftStore

theorem tidy_dispatchStoredRunAttempt {stored : StoredRun} {plan : ExecutionPlan} {now : ℤ}
    (hheld : Held stored s) :
    Tidy legit (Lifecycle.dispatchStoredRunAttempt sha256 stored plan now) s := by
  simp only [Lifecycle.dispatchStoredRunAttempt]
  split
  · trivial
  · split
    · trivial
    · split
      · trivial
      · split
        · trivial
        · cases attemptIdentity sha256 stored.record.runId (stored.record.attemptCount + 1) with
          | error e => trivial
          | ok attemptId => exact tidy_submitAttempt hheld

/-- The run a start leaves behind. -/
def Started (sha256 : String → String) (submission : RunSubmission) (log : RunLog) : Prop :=
  Durable (logicalRunIdentity sha256 submission) (submission.fingerprint sha256) log

/-- A snapshot with the right name and submission is the run of the submission. -/
theorem started_of_recorded {submission : RunSubmission} {etag author : ℕ} {record : RunRecord}
    {t : RunLog} (hinv : Traced legit t)
    (hrecorded : recorded t.world.snapshots etag =
      some ⟨logicalRunIdentity sha256 submission, some record, author⟩)
    (hsubmission : record.submissionSha256 = submission.fingerprint sha256) :
    Started sha256 submission t := by
  have hmem := mem_of_recorded hrecorded
  obtain ⟨other, hvalue, hid, -⟩ := hinv.writes _ hmem
  simp only [Option.some.injEq] at hvalue
  subst hvalue
  exact ⟨_, hmem, record, rfl, hid, hsubmission⟩

theorem safe_dispatchRunAttempt {submission : RunSubmission} {plan : ExecutionPlan} {now : ℤ}
    (hlegit : legit (createRunRecord sha256 submission)) :
    Safe loggedServices (runDiscipline legit) (fun _ => Started sha256 submission)
      (fun _ _ => True) (Lifecycle.dispatchRunAttempt sha256 submission plan now) s := by
  simp only [Lifecycle.dispatchRunAttempt]
  cases validateSubmissionPlan submission plan with
  | error e => trivial
  | ok _ =>
    apply safe_logged
    · intros
      exact hlegit
    · intro t t' claimed ht ht' hinv hstep
      cases claimed with
      | error e => trivial
      | ok claim =>
        have hclaimed : t.world.claimed (createRunRecord sha256 submission) =
            (.ok claim, t'.world) := by
          rcases hstep with ⟨oracle, h⟩ | ⟨⟨message, h⟩, -⟩
          · exact h
          · cases h
        obtain ⟨⟨author, hrecorded⟩, hsubmission⟩ := claimed_ok hclaimed
        have hstarted : Started sha256 submission t' :=
          started_of_recorded hinv hrecorded hsubmission
        simp only [Lifecycle.liftStore, Prog.ret_bind]
        split
        · trivial
        · refine Safe.weaken (tidy_dispatchStoredRunAttempt ⟨_, author, hrecorded⟩) ?_
            (fun _ _ _ h => h)
          intro _ u hu _
          exact hstarted.mono hu

/-- A lost save is answered only from the run of the submission. -/
theorem safe_recoverStart {submission : RunSubmission} {e : LifecycleError} :
    Safe loggedServices (runDiscipline legit) (fun _ => Started sha256 submission)
      (fun _ _ => True) (Lifecycle.recoverStart sha256 submission e) s := by
  unfold Lifecycle.recoverStart
  split
  · trivial
  · apply safe_logged
    · intros
      trivial
    · intro t t' found ht ht' hinv hstep
      match found with
      | .error e => trivial
      | .ok none => trivial
      | .ok (some stored) =>
        simp only [Lifecycle.liftStore, Prog.ret_bind]
        split
        · trivial
        next hsubmission =>
          rcases hstep with ⟨oracle, h⟩ | ⟨⟨message, h⟩, -⟩
          · obtain ⟨hanswer, hworld⟩ := Prod.mk.inj h
            have hfound := Except.ok.inj hanswer
            rw [Option.map_eq_some_iff] at hfound
            obtain ⟨version, hcurrent, rfl⟩ := hfound
            obtain ⟨author, hrecorded⟩ := recorded_of_current hcurrent
            rw [hworld] at hrecorded
            exact started_of_recorded hinv hrecorded (by simpa using hsubmission)
          · cases h
  · trivial
  · trivial
  · trivial
  · trivial

/-- A start that returns leaves the run of its submission in the store. -/
theorem safe_start {registry : Registry} {submission : RunSubmission}
    (hlegit : legit (createRunRecord sha256 submission)) :
    Safe loggedServices (runDiscipline legit) (fun _ => Started sha256 submission)
      (fun _ _ => True) (Lifecycle.start sha256 registry submission) s := by
  unfold Lifecycle.start
  cases registry.forSubmission submission with
  | error e => trivial
  | ok plan =>
    cases hrequire : registry.require plan.backendId with
    | error e =>
      simp only [Lifecycle.liftRegistry, Prog.ret_bind, hrequire]
      trivial
    | ok _ =>
      simp only [Lifecycle.liftRegistry, Prog.ret_bind, hrequire]
      apply safe_logged
      · intros
        trivial
      · intro t t' now _ _ _ _
        refine Safe.bind (Safe.tryCatch (safe_dispatchRunAttempt hlegit) ?_) ?_
        · intro e u _ _
          exact safe_recoverStart
        · intro stored u _ hstarted
          cases Lifecycle.runStateOf stored.record with
          | error e => trivial
          | ok state => exact hstarted

end Starting

section Leases

variable {platform : Platform} {settings : QueueSettings}

/-- How a row may change while a batch is leased: what it carries stays, and a receipt it has
afterwards it had before or was handed out with its text. -/
structure Releases (messages : List QueuedScheduleMessage) (row row' : QueueRow) : Prop where
  messageId : row'.messageId = row.messageId
  body : row'.body = row.body
  wakeup : row'.wakeup = row.wakeup
  receipt : ∀ receipt, row'.receiptHandle = some receipt →
    row.receiptHandle = some receipt ∨ ⟨receipt, row'.body⟩ ∈ messages

/-- Rewriting a row without touching what it carries. -/
def Carries (change : QueueRow → QueueRow) : Prop :=
  ∀ row, (change row).messageId = row.messageId ∧ (change row).body = row.body ∧
    (change row).wakeup = row.wakeup

theorem carries_lease (receipt : String) (leaseUntil : ℤ) :
    Carries (fun row => row.lease receipt leaseUntil) := fun _ => ⟨rfl, rfl, rfl⟩

theorem carries_deadLetter (now : ℤ) : Carries (fun row => row.deadLetter now) :=
  fun _ => ⟨rfl, rfl, rfl⟩

theorem Releases.refl (messages : List QueuedScheduleMessage) (row : QueueRow) :
    Releases messages row row := ⟨rfl, rfl, rfl, fun _ h => .inl h⟩

/-- One rewritten message, followed by what happens to the other rows. -/
theorem forall_releases_update {messages messages' : List QueuedScheduleMessage}
    {messageId : String} {change : QueueRow → QueueRow} {queue queue' : List QueueRow}
    (hkeep : Carries change)
    (hreceipt : ∀ row ∈ queue, row.messageId = messageId → ∀ receipt,
      (change row).receiptHandle = some receipt → ⟨receipt, row.body⟩ ∈ messages')
    (hsub : messages ⊆ messages')
    (h : List.Forall₂ (Releases messages) (updateMessage messageId change queue) queue') :
    List.Forall₂ (Releases messages') queue queue' := by
  unfold updateMessage at h
  rw [List.forall₂_map_left_iff] at h
  have hboth := (List.forall₂_and_left queue queue').mpr
    ⟨fun row (hmem : row ∈ queue) => hmem, h⟩
  refine List.Forall₂.imp ?_ hboth
  rintro row row' ⟨hmem, hrow⟩
  obtain ⟨hid, hbody, hwakeup⟩ := hkeep row
  by_cases hname : row.messageId = messageId
  · rw [if_pos hname] at hrow
    refine ⟨hrow.messageId.trans hid, hrow.body.trans hbody, hrow.wakeup.trans hwakeup, ?_⟩
    intro receipt hsome
    rcases hrow.receipt receipt hsome with hold | hnew
    · rw [hrow.body, hbody]
      exact .inr (hreceipt row hmem hname receipt hold)
    · exact .inr (hsub hnew)
  · rw [if_neg hname] at hrow
    refine ⟨hrow.messageId, hrow.body, hrow.wakeup, ?_⟩
    intro receipt hsome
    rcases hrow.receipt receipt hsome with hold | hnew
    · exact .inl hold
    · exact .inr (hsub hnew)

theorem body_of_updateMessage (messageId : String) {change : QueueRow → QueueRow}
    {queue rows : List QueueRow}
    (hkeep : Carries change)
    (hrows : ∀ row ∈ rows, ∀ other ∈ queue, other.messageId = row.messageId →
      other.body = row.body) :
    ∀ row ∈ rows, ∀ other ∈ updateMessage messageId change queue,
      other.messageId = row.messageId → other.body = row.body := by
  intro row hrow other hother hid
  obtain ⟨old, hold, rfl⟩ := List.mem_map.mp hother
  obtain ⟨hchangeId, hchangeBody, -⟩ := hkeep old
  by_cases hname : old.messageId = messageId
  · rw [if_pos hname] at hid ⊢
    rw [hchangeBody]
    exact hrows row hrow old hold (hchangeId ▸ hid)
  · rw [if_neg hname] at hid ⊢
    exact hrows row hrow old hold hid

/-- Leasing changes row by row, and draws a new receipt for each message. -/
theorem leaseRows_spec (platform : Platform) (settings : QueueSettings) (call : ReceiveCall)
    (index : ℕ) {rows queue : List QueueRow}
    (hrows : ∀ row ∈ rows, ∀ other ∈ queue, other.messageId = row.messageId →
      other.body = row.body) :
    List.Forall₂ (Releases (leaseRows platform settings call index rows queue).1) queue
        (leaseRows platform settings call index rows queue).2 ∧
      ∃ indices : List ℕ, (∀ j ∈ indices, index ≤ j) ∧ indices.Nodup ∧
        (leaseRows platform settings call index rows queue).1.map
          QueuedScheduleMessage.receiptHandle = indices.map call.receipt := by
  induction rows generalizing index queue with
  | nil =>
    refine ⟨List.forall₂_same.mpr (fun row _ => Releases.refl _ row), [], ?_⟩
    simp [leaseRows]
  | cons row rest ih =>
    have hrest : ∀ row ∈ rest, ∀ other ∈ queue, other.messageId = row.messageId →
        other.body = row.body := fun r hr => hrows r (List.mem_cons_of_mem _ hr)
    have hhead := hrows row List.mem_cons_self
    simp only [leaseRows]
    split
    · have hkeep := carries_lease (call.receipt index)
        (call.leasedAt index + 1000000 * (settings.visibilityTimeoutSeconds : ℤ))
      obtain ⟨hrel, indices, hle, hnodup, hmap⟩ :=
        ih (index + 1) (body_of_updateMessage row.messageId hkeep hrest)
      refine ⟨?_, index :: indices, ?_, ?_, ?_⟩
      · refine forall_releases_update hkeep ?_ (List.subset_cons_self _ _) hrel
        intro r hr hid receipt hsome
        cases hsome
        rw [hhead r hr hid]
        exact List.mem_cons_self
      · intro j hj
        rcases List.mem_cons.mp hj with rfl | hj'
        · exact Nat.le_refl _
        · have := hle j hj'
          omega
      · refine List.nodup_cons.mpr ⟨?_, hnodup⟩
        intro hmem
        have := hle index hmem
        omega
      · rw [List.map_cons, List.map_cons, hmap]
    · have hkeep := carries_deadLetter (call.leasedAt index)
      obtain ⟨hrel, indices, hle, hnodup, hmap⟩ :=
        ih (index + 1) (body_of_updateMessage row.messageId hkeep hrest)
      refine ⟨?_, indices, ?_, hnodup, hmap⟩
      · refine forall_releases_update hkeep ?_ (List.Subset.refl _) hrel
        intro r hr hid receipt hsome
        cases hsome
      · intro j hj
        have := hle j hj
        omega

theorem Releases.trans {messages messages' : List QueuedScheduleMessage} {a b c : QueueRow}
    (h : Releases messages a b) (h' : Releases messages' b c) (hsub : messages ⊆ messages') :
    Releases messages' a c := by
  refine ⟨h'.messageId.trans h.messageId, h'.body.trans h.body, h'.wakeup.trans h.wakeup, ?_⟩
  intro receipt hsome
  rcases h'.receipt receipt hsome with hold | hnew
  · rcases h.receipt receipt hold with hfirst | hmiddle
    · exact .inl hfirst
    · rw [h'.body]
      exact .inr (hsub hmiddle)
  · exact .inr hnew

theorem releases_sweep (now : ℤ) (row : QueueRow) : Releases [] row (sweep settings now row) := by
  unfold sweep
  split
  · exact ⟨rfl, rfl, rfl, by rintro receipt ⟨⟩⟩
  · exact Releases.refl [] row

/-- Every row after a receive comes from a row before it. -/
theorem releases_receive (platform : Platform) (settings : QueueSettings) (call : ReceiveCall)
    {db : Database}
    (hnodup : (db.queue.map QueueRow.messageId).Nodup) :
    List.Forall₂ (Releases (receive platform settings call db).1) db.queue
        (receive platform settings call db).2.queue ∧
      ∃ indices : List ℕ, indices.Nodup ∧
        (receive platform settings call db).1.map QueuedScheduleMessage.receiptHandle =
          indices.map call.receipt := by
  have hids : ((db.queue.map (sweep settings call.sweptAt)).map QueueRow.messageId).Nodup := by
    rw [List.map_map]
    have hsame : QueueRow.messageId ∘ sweep settings call.sweptAt = QueueRow.messageId :=
      funext (fun row => (releases_sweep call.sweptAt row).messageId)
    rw [hsame]
    exact hnodup
  have hrows : ∀ row ∈ (((db.queue.map (sweep settings call.sweptAt)).filter (fun row =>
      row.visible settings call.selectedAt && !call.locked row.messageId)).insertionSort
        deliveredBefore).take settings.batchSize,
      ∀ other ∈ db.queue.map (sweep settings call.sweptAt), other.messageId = row.messageId →
        other.body = row.body := by
    intro row hrow other hother hid
    have hmem : row ∈ db.queue.map (sweep settings call.sweptAt) := by
      have htaken := List.mem_of_mem_take hrow
      rw [List.mem_insertionSort, List.mem_filter] at htaken
      exact htaken.1
    rw [List.inj_on_of_nodup_map hids hother hmem hid]
  obtain ⟨hrel, indices, -, hindices, hmap⟩ := leaseRows_spec platform settings call 0 hrows
  refine ⟨?_, indices, hindices, hmap⟩
  rw [List.forall₂_map_left_iff] at hrel
  exact List.Forall₂.imp (fun row row' h =>
    (releases_sweep call.sweptAt row).trans h (List.nil_subset _)) hrel

theorem Releases.messageIds {messages : List QueuedScheduleMessage} {queue queue' : List QueueRow}
    (h : List.Forall₂ (Releases messages) queue queue') :
    queue'.map QueueRow.messageId = queue.map QueueRow.messageId := by
  induction h with
  | nil => rfl
  | cons hrow _ ih => rw [List.map_cons, List.map_cons, hrow.messageId, ih]

theorem Releases.source {messages : List QueuedScheduleMessage} {queue queue' : List QueueRow}
    (h : List.Forall₂ (Releases messages) queue queue') :
    ∀ row' ∈ queue', ∃ row ∈ queue, Releases messages row row' := by
  induction h with
  | nil => simp
  | @cons a b as bs hrow _ ih =>
    intro row' hmem
    rcases List.mem_cons.mp hmem with rfl | hrest
    · exact ⟨a, List.mem_cons_self, hrow⟩
    · obtain ⟨row, hold, hrel⟩ := ih row' hrest
      exact ⟨row, List.mem_cons_of_mem _ hold, hrel⟩

end Leases

section Occurrences

variable (platform : Platform) (catalog : String → Option ExecutionPlan)

/-- A submission that a delivery of a wakeup may lead to, under the plan contents that belong
to each revision. -/
def Resolved (wakeup : ScheduleWakeup) (submission : RunSubmission) : Prop :=
  ∃ plan process graph requestedAt, catalog wakeup.planRevision = some plan ∧
    plan.revision = wakeup.planRevision ∧
    submission =
      occurrenceSubmission platform process plan graph wakeup.triggerId wakeup requestedAt ∧
    submission.planSelection = plan.selection

/-- A record that a delivery of some wakeup may claim. -/
def OccurrenceRecord (record : RunRecord) : Prop :=
  ∃ wakeup submission, Resolved platform catalog wakeup submission ∧
    record = createRunRecord platform.sha256 submission

/-- The occurrence a record was created for. -/
def occurrenceOf (record : RunRecord) : Option ScheduleWakeup :=
  record.trigger.scheduledOccurrence.map
    (fun occurrence => ⟨record.trigger.triggerId, record.planRevision, occurrence⟩)

variable {platform catalog}

/-- The run identifier and the fingerprint depend on the wakeup alone: whichever process
delivers it, whenever, and whatever else it records in the submission. -/
theorem Resolved.same_run {wakeup : ScheduleWakeup} {first second : RunSubmission}
    (h : Resolved platform catalog wakeup first) (h' : Resolved platform catalog wakeup second) :
    logicalRunIdentity platform.sha256 first = logicalRunIdentity platform.sha256 second ∧
      first.fingerprint platform.sha256 = second.fingerprint platform.sha256 := by
  obtain ⟨plan, process, graph, at', hplan, -, rfl, hselection⟩ := h
  obtain ⟨plan', process', graph', at'', hplan', -, rfl, hselection'⟩ := h'
  rw [hplan, Option.some.injEq] at hplan'
  subst hplan'
  refine ⟨rfl, ?_⟩
  simp only [RunSubmission.planSelection, ExecutionPlan.selection, occurrenceSubmission,
    PlanSelection.mk.injEq] at hselection hselection'
  simp only [RunSubmission.fingerprint, occurrenceSubmission, hselection, hselection']

theorem occurrenceOf_createRunRecord {wakeup : ScheduleWakeup} {submission : RunSubmission}
    (h : Resolved platform catalog wakeup submission) :
    occurrenceOf (createRunRecord platform.sha256 submission) = some wakeup := by
  obtain ⟨plan, process, graph, at', -, hrevision, rfl, -⟩ := h
  simp [occurrenceOf, createRunRecord, occurrenceSubmission, hrevision]

theorem OccurrenceRecord.same_run {first second : RunRecord}
    (h : OccurrenceRecord platform catalog first)
    (h' : OccurrenceRecord platform catalog second)
    (hsame : occurrenceOf first = occurrenceOf second) :
    first.runId = second.runId ∧ first.submissionSha256 = second.submissionSha256 := by
  obtain ⟨wakeup, submission, hresolved, rfl⟩ := h
  obtain ⟨wakeup', submission', hresolved', rfl⟩ := h'
  rw [occurrenceOf_createRunRecord hresolved, occurrenceOf_createRunRecord hresolved',
    Option.some.injEq] at hsame
  subst hsame
  exact hresolved.same_run hresolved'

theorem occurrenceOf_eq_of_identity {first second : RunRecord}
    (h : first.identity = second.identity) : occurrenceOf first = occurrenceOf second := by
  simp only [RunRecord.identity, RunIdentity.mk.injEq] at h
  simp [occurrenceOf, h]

end Occurrences

section System

variable (platform : Platform) (catalog : String → Option ExecutionPlan)

/-- The occurrence of a message text has a stored run. -/
def StartedMessage (body : String) (log : RunLog) : Prop :=
  ∃ wakeup submission, deserializeScheduleWakeup body = some wakeup ∧
    Resolved platform catalog wakeup submission ∧ Started platform.sha256 submission log

/-- What holds between the runs, the queue and the receipts. -/
structure Sound (s : System) : Prop where
  runs : Traced (OccurrenceRecord platform catalog) s.runs
  messageIds : (s.db.queue.map QueueRow.messageId).Nodup
  receipts : ∀ row ∈ s.db.queue, ∀ receipt, row.receiptHandle = some receipt →
    ⟨receipt, row.body⟩ ∈ s.handed
  handed : ∀ message ∈ s.handed, ∀ other ∈ s.handed,
    message.receiptHandle = other.receiptHandle → message = other
  removed : ∀ row ∈ s.removed, StartedMessage platform catalog row.body s.runs
  bodies : ∀ row ∈ s.db.queue, row.body = serializeScheduleWakeup row.wakeup
  kept : ∀ wakeup ∈ s.db.inserted, (∃ row ∈ s.db.queue, row.wakeup = wakeup) ∨
    ∃ row ∈ s.removed, row.wakeup = wakeup ∧ row.body = serializeScheduleWakeup wakeup

structure Le (s t : System) : Prop where
  snapshots : s.runs.world.snapshots <:+ t.runs.world.snapshots
  handed : s.handed ⊆ t.handed

def systemDiscipline : Discipline System where
  inv := Sound platform catalog
  le := Le
  refl _ := ⟨List.suffix_refl _, List.Subset.refl _⟩
  trans _ _ _ hab hbc :=
    ⟨hab.snapshots.trans hbc.snapshots, List.Subset.trans hab.handed hbc.handed⟩

variable {platform catalog} {settings : QueueSettings} {s : System}

theorem StartedMessage.mono {body : String} {log later : RunLog}
    (h : StartedMessage platform catalog body log)
    (hle : log.world.snapshots <:+ later.world.snapshots) :
    StartedMessage platform catalog body later := by
  obtain ⟨wakeup, submission, hbody, hresolved, hstarted⟩ := h
  exact ⟨wakeup, submission, hbody, hresolved, hstarted.mono hle⟩

theorem Le.refl (s : System) : Le s s := ⟨List.suffix_refl _, List.Subset.refl _⟩

/-- The scheduler's insert. -/
theorem Sound.insert (h : Sound platform catalog s) (wakeup : ScheduleWakeup) (now : ℤ) :
    Sound platform catalog (s.insert platform wakeup now).2 ∧
      Le s (s.insert platform wakeup now).2 := by
  simp only [System.insert, Database.insertWakeup]
  split
  · exact ⟨h, Le.refl s⟩
  next inserted db heq =>
    split at heq
    · cases heq
      exact ⟨h, Le.refl s⟩
    · split at heq
      · cases heq
      next hnew =>
        cases heq
        refine ⟨⟨h.runs, ?_, ?_, h.handed, h.removed, ?_, ?_⟩, List.suffix_refl _,
          List.Subset.refl _⟩
        · rw [List.map_append, List.nodup_append]
          refine ⟨h.messageIds, by simp, ?_⟩
          intro id hid other hother heq
          simp only [List.map_cons, List.map_nil, List.mem_singleton] at hother
          obtain ⟨row, hrow, rfl⟩ := List.mem_map.mp hid
          apply hnew
          rw [List.any_eq_true]
          exact ⟨row, hrow, by simpa using heq.trans hother⟩
        · intro row hmem receipt hsome
          rcases List.mem_append.mp hmem with hold | hlast
          · exact h.receipts row hold receipt hsome
          · rw [List.mem_singleton] at hlast
            subst hlast
            cases hsome
        · intro row hmem
          rcases List.mem_append.mp hmem with hold | hlast
          · exact h.bodies row hold
          · rw [List.mem_singleton] at hlast
            subst hlast
            rfl
        · intro other hmem
          rcases List.mem_append.mp hmem with hold | hlast
          · rcases h.kept other hold with ⟨row, hrow, hwakeup⟩ | hremoved
            · exact .inl ⟨row, List.mem_append_left _ hrow, hwakeup⟩
            · exact .inr hremoved
          · rw [List.mem_singleton] at hlast
            subst hlast
            exact .inl ⟨_, List.mem_append_right _ (List.mem_singleton.mpr rfl), rfl⟩

theorem Sound.receive (h : Sound platform catalog s) {oracle : Oracle}
    (hfresh : FreshReceipts oracle s) :
    Sound platform catalog (s.receive platform settings oracle.receive).2 ∧
      Le s (s.receive platform settings oracle.receive).2 := by
  obtain ⟨hrel, indices, hindices, hmap⟩ :=
    releases_receive platform settings oracle.receive h.messageIds
  have hwakeups := @receive_wakeups platform settings oracle.receive s.db
  have hreceipts : ((Schedule.receive platform settings oracle.receive s.db).1.map
      QueuedScheduleMessage.receiptHandle).Nodup := by
    rw [hmap]
    exact hindices.map (fun i j hij => hfresh.1 i j hij)
  have hnew : ∀ message ∈ (Schedule.receive platform settings oracle.receive s.db).1,
      ∀ other ∈ s.handed, message.receiptHandle ≠ other.receiptHandle := by
    intro message hmem other hother heq
    have hdrawn : message.receiptHandle ∈ indices.map oracle.receive.receipt := by
      rw [← hmap]
      exact List.mem_map_of_mem hmem
    obtain ⟨j, -, hj⟩ := List.mem_map.mp hdrawn
    exact hfresh.2 j other hother (heq.symm.trans hj.symm)
  refine ⟨⟨h.runs, ?_, ?_, ?_, h.removed, ?_, ?_⟩, List.suffix_refl _,
    List.subset_append_right _ _⟩
  · simp only [System.receive, Releases.messageIds hrel]
    exact h.messageIds
  · intro row' hmem receipt hsome
    obtain ⟨row, hrow, hchange⟩ := Releases.source hrel row' hmem
    rcases hchange.receipt receipt hsome with hold | hmessage
    · rw [hchange.body]
      exact List.mem_append_right _ (h.receipts row hrow receipt hold)
    · exact List.mem_append_left _ hmessage
  · intro message hmem other hother heq
    rcases List.mem_append.mp hmem with hmem' | hmem'
    · rcases List.mem_append.mp hother with hother' | hother'
      · exact List.inj_on_of_nodup_map hreceipts hmem' hother' heq
      · exact (hnew message hmem' other hother' heq).elim
    · rcases List.mem_append.mp hother with hother' | hother'
      · exact (hnew other hother' message hmem' heq.symm).elim
      · exact h.handed message hmem' other hother' heq
  · intro row' hmem
    obtain ⟨row, hrow, hchange⟩ := Releases.source hrel row' hmem
    rw [hchange.body, hchange.wakeup]
    exact h.bodies row hrow
  · intro wakeup hmem
    rcases h.kept wakeup hmem with ⟨row, hrow, rfl⟩ | hremoved
    · have hstill : row.wakeup ∈ (Schedule.receive platform settings oracle.receive s.db).2.queue.map
          QueueRow.wakeup := by
        rw [hwakeups]
        exact List.mem_map_of_mem hrow
      obtain ⟨row', hrow', hsame⟩ := List.mem_map.mp hstill
      exact .inl ⟨row', hrow', hsame⟩
    · exact .inr hremoved

/-- An acknowledgement removes only rows of the message whose receipt it names, so it is
enough that this message's occurrence was started. -/
theorem Sound.delete (h : Sound platform catalog s) {receipt body : String} (now : ℤ)
    (hhanded : ⟨receipt, body⟩ ∈ s.handed)
    (hstarted : StartedMessage platform catalog body s.runs) :
    Sound platform catalog (s.delete receipt now).2 ∧ Le s (s.delete receipt now).2 := by
  unfold System.delete
  split
  · exact ⟨h, Le.refl s⟩
  next db hdelete =>
    unfold Schedule.delete at hdelete
    split at hdelete
    · cases hdelete
    · split at hdelete
      · cases hdelete
        refine ⟨⟨h.runs, ?_, ?_, h.handed, ?_, ?_, ?_⟩, List.suffix_refl _,
          List.Subset.refl _⟩
        · exact h.messageIds.sublist (List.filter_sublist.map _)
        · intro row hmem
          exact h.receipts row (List.mem_filter.mp hmem).1
        · intro row hmem
          rcases List.mem_append.mp hmem with hnew | hold
          · obtain ⟨hrow, hacknowledged⟩ := List.mem_filter.mp hnew
            have hreceipt : row.receiptHandle = some receipt := by
              simp only [QueueRow.acknowledgedBy, Bool.and_eq_true, beq_iff_eq] at hacknowledged
              exact hacknowledged.1.1
            have hsame := h.handed _ (h.receipts row hrow receipt hreceipt) _ hhanded rfl
            rw [QueuedScheduleMessage.mk.injEq] at hsame
            rw [hsame.2]
            exact hstarted
          · exact h.removed row hold
        · intro row hmem
          exact h.bodies row (List.mem_filter.mp hmem).1
        · intro wakeup hmem
          rcases h.kept wakeup hmem with ⟨row, hrow, hwakeup⟩ | ⟨row, hrow, hwakeup⟩
          · by_cases hacknowledged : row.acknowledgedBy receipt now = true
            · exact .inr ⟨row, List.mem_append_left _
                (List.mem_filter.mpr ⟨hrow, hacknowledged⟩), hwakeup,
                hwakeup ▸ h.bodies row hrow⟩
            · exact .inl ⟨row, List.mem_filter.mpr ⟨hrow, by simpa using hacknowledged⟩, hwakeup⟩
          · exact .inr ⟨row, List.mem_append_right _ hrow, hwakeup⟩
      · cases hdelete

end System

section Programs

variable {platform : Platform} {catalog : String → Option ExecutionPlan}
  {settings : QueueSettings} {α : Type} {s : System}
variable {Q : α → System → Prop} {E : ConsumerError → System → Prop}

/-- A request other than those of the run lifecycle. -/
theorem safe_request {o : Request} {next : Answer o → Action α}
    (hnot : ∀ o', o ≠ .lifecycle o')
    (hserve : ∀ t oracle, Le s t → Sound platform catalog t →
      (o = .receive → FreshReceipts oracle t) →
      Sound platform catalog (serve platform settings oracle o t).2 ∧
        Le t (serve platform settings oracle o t).2)
    (hfailed : ∀ t answer, Le s t → Failed o answer →
      Safe (services platform settings) (systemDiscipline platform catalog) Q E (next answer) t)
    (hserved : ∀ t oracle, Le s t → Le t (serve platform settings oracle o t).2 →
      Safe (services platform settings) (systemDiscipline platform catalog) Q E
        (next (serve platform settings oracle o t).1) (serve platform settings oracle o t).2) :
    Safe (services platform settings) (systemDiscipline platform catalog) Q E
      (.call o next) s := by
  rintro t ht hinv answer t' ⟨oracle, hfresh, hstep⟩
  obtain ⟨hinv', hle'⟩ := hserve t oracle ht hinv hfresh
  have htrans := (systemDiscipline platform catalog).trans s t _ ht hle'
  rcases hstep with hanswer | ⟨hfail, rfl | hsame⟩
  · have hnext := hserved t oracle ht hle'
    rw [hanswer] at hinv' hle' hnext
    exact ⟨hinv', hle', hnext⟩
  · exact ⟨hinv', hle', hfailed _ answer htrans hfail⟩
  · have heq : t' = t := by
      rw [hsame]
      cases o with
      | lifecycle o' => exact (hnot o' rfl).elim
      | _ => rfl
    subst heq
    exact ⟨hinv, Le.refl _, hfailed _ answer ht hfail⟩

/-- A lifecycle program inside the consumer keeps the queue as it is. -/
theorem safe_lifecycle {p : Lifecycle.Action α} {R : α → RunLog → Prop}
    (hp : Safe loggedServices (runDiscipline (OccurrenceRecord platform catalog)) R
      (fun _ _ => True) p s.runs) :
    Safe (services platform settings) (systemDiscipline platform catalog)
      (fun a t => R a t.runs) (fun _ _ => True) (lifecycle p) s := by
  have hpart : ∀ o t answer t', (services platform settings).step (.lifecycle o) t answer t' →
      ∃ world, t' = { t with runs := ⟨world, RunLog.note t.runs.claims o⟩ } ∧
        Lifecycle.services.step o t.runs.world answer world := by
    rintro o t answer t' ⟨oracle, -, hstep⟩
    rcases hstep with hanswer | ⟨hfail, rfl | rfl⟩
    · obtain ⟨rfl, rfl⟩ := Prod.mk.inj hanswer
      exact ⟨_, rfl, .inl ⟨oracle.lifecycle, rfl⟩⟩
    · exact ⟨_, rfl, .inr ⟨hfail, .inr ⟨oracle.lifecycle, rfl⟩⟩⟩
    · exact ⟨_, rfl, .inr ⟨hfail, .inl rfl⟩⟩
  have hembed : Safe (services platform settings) (systemDiscipline platform catalog)
      (fun a t => R a t.runs) (fun e t => ∃ e', e = ConsumerError.lifecycle e' ∧ True)
      (p.embed Request.lifecycle (fun _ answer => answer) ConsumerError.lifecycle) s := by
    refine Safe.embed (fun _ _ h => Le.snapshots h) (fun _ h => Sound.runs h) ?_ hp
    intro o t answer t' hstep
    obtain ⟨world, rfl, hworld⟩ := hpart o t answer t' hstep
    refine ⟨⟨hworld, rfl⟩, ?_⟩
    intro hinv hruns hle
    refine ⟨⟨hruns, hinv.messageIds, hinv.receipts, hinv.handed, ?_, hinv.bodies, hinv.kept⟩, hle,
      List.Subset.refl _⟩
    intro row hrow
    exact (hinv.removed row hrow).mono hle
  exact Safe.weaken hembed (fun _ _ _ h => h) (fun _ _ _ _ => trivial)

/-- Requests that change nothing. -/
theorem safe_ask {o : Request} {next : Answer o → Action α} (hnot : ∀ o', o ≠ .lifecycle o')
    (hsame : ∀ oracle t, (serve platform settings oracle o t).2 = t)
    (hnext : ∀ answer t, Le s t →
      Safe (services platform settings) (systemDiscipline platform catalog) Q E
        (next answer) t) :
    Safe (services platform settings) (systemDiscipline platform catalog) Q E
      (.call o next) s := by
  apply safe_request hnot
  · intro t oracle _ hinv _
    rw [hsame]
    exact ⟨hinv, Le.refl t⟩
  · intro t answer ht _
    exact hnext answer t ht
  · intro t oracle ht _
    rw [hsame]
    exact hnext _ t ht

theorem requireRevision_ok {registry : Registry} {revision : String} {plan : ExecutionPlan}
    (h : registry.requireRevision revision = .ok plan) :
    plan ∈ registry.plans ∧ plan.revision = revision := by
  unfold Lifecycle.Registry.requireRevision at h
  split at h
  next found hfind =>
    cases h
    exact ⟨List.mem_of_find?_eq_some hfind, by simpa using List.find?_some hfind⟩
  · cases h

theorem validateSubmissionPlan_ok {submission : RunSubmission} {plan : ExecutionPlan}
    (h : validateSubmissionPlan submission plan = .ok ()) :
    submission.planSelection = plan.selection := by
  unfold validateSubmissionPlan at h
  obtain ⟨-, h⟩ := Execution.guard_eq_ok h
  obtain ⟨hselection, -⟩ := Execution.guard_eq_ok h
  simpa using hselection

theorem forSubmission_ok {registry : Registry} {submission : RunSubmission}
    {plan : ExecutionPlan} (h : registry.forSubmission submission = .ok plan) :
    registry.requireRevision submission.planRevision = .ok plan ∧
      submission.planSelection = plan.selection := by
  unfold Lifecycle.Registry.forSubmission at h
  obtain ⟨found, hfound, h⟩ := Execution.bind_eq_ok h
  split at h
  next hvalid =>
    cases h
    exact ⟨hfound, validateSubmissionPlan_ok hvalid⟩
  · cases h

/-- The plans of a process are the contents their revisions stand for. -/
def Registered (catalog : String → Option ExecutionPlan) (process : Process) : Prop :=
  ∀ plan ∈ process.registry.plans, catalog plan.revision = some plan

theorem safe_resolve {process : Process} {wakeup : ScheduleWakeup} {requestedAt : ℤ}
    (hregistered : Registered catalog process) :
    Safe (services platform settings) (systemDiscipline platform catalog)
      (fun submission _ => Resolved platform catalog wakeup submission) (fun _ _ => True)
      (resolve platform process wakeup requestedAt) s := by
  unfold resolve
  split
  · trivial
  next spec hfind =>
    have htrigger : spec.triggerId = wakeup.triggerId := by simpa using List.find?_some hfind
    split
    · trivial
    · split
      · trivial
      · cases hplan : process.registry.requireRevision wakeup.planRevision with
        | error e => trivial
        | ok plan =>
          obtain ⟨hmem, hrevision⟩ := requireRevision_ok hplan
          apply safe_ask (by rintro o' ⟨⟩) (fun _ _ => rfl)
          intro answer t _
          cases answer with
          | notFound => trivial
          | failed => trivial
          | found graph =>
            simp only
            split
            · trivial
            · cases hvalid : process.registry.forSubmission (occurrenceSubmission platform process
                  plan graph spec.triggerId wakeup requestedAt) with
              | error e => trivial
              | ok selected =>
                obtain ⟨hselected, hselection⟩ := forSubmission_ok hvalid
                have hsame : selected = plan := by
                  simp only [occurrenceSubmission, hrevision, hplan, Except.ok.injEq] at hselected
                  exact hselected.symm
                rw [hsame] at hselection
                refine ⟨plan, process, graph, requestedAt, ?_, hrevision, ?_, hselection⟩
                · rw [← hrevision]
                  exact hregistered plan hmem
                · rw [htrigger]

theorem safe_clock :
    Safe (services platform settings) (systemDiscipline platform catalog)
      (fun _ _ => True) (fun _ _ => True) clock s := by
  apply safe_lifecycle (R := fun _ _ => True)
  apply safe_logged
  · intros
    trivial
  · intros
    trivial

/-- A message is acknowledged only after its occurrence was started. -/
theorem safe_handleMessage {process : Process} {message : QueuedScheduleMessage}
    (hregistered : Registered catalog process) (hhanded : message ∈ s.handed) :
    Safe (services platform settings) (systemDiscipline platform catalog)
      (fun _ _ => True) (fun _ _ => True) (handleMessage platform process message) s := by
  unfold handleMessage
  split
  · trivial
  next wakeup hwakeup =>
    refine Safe.bind safe_clock ?_
    intro requestedAt t ht _
    refine Safe.bind (safe_resolve hregistered) ?_
    intro submission u hu hresolved
    have hstart : Safe (services platform settings) (systemDiscipline platform catalog)
        (fun _ v => Started platform.sha256 submission v.runs) (fun _ _ => True)
        (lifecycle (Lifecycle.start platform.sha256 process.registry submission)) u :=
      safe_lifecycle (R := fun _ => Started platform.sha256 submission)
        (safe_start ⟨wakeup, submission, hresolved, rfl⟩)
    refine Safe.bind hstart ?_
    intro _ v hv hstarted
    have hheld : message ∈ v.handed := hv.handed (hu.handed (ht.handed hhanded))
    have hmessage : StartedMessage platform catalog message.body v.runs :=
      ⟨wakeup, submission, hwakeup, hresolved, hstarted⟩
    apply safe_request (by rintro o' ⟨⟩)
    · intro x oracle hx hinv _
      exact hinv.delete oracle.databaseNow (hx.handed hheld) (hmessage.mono hx.snapshots)
    · intro x answer _ hfailed
      obtain rfl : answer = .error (.scheduleQueue "The PostgreSQL schedule delete failed.") :=
        hfailed
      trivial
    · intro x oracle _ _
      cases (serve platform settings oracle (.delete message.receiptHandle) x).1 with
      | ok _ => trivial
      | error e => trivial

theorem safe_handleMessages {process : Process} {messages : List QueuedScheduleMessage}
    {accepted : ℕ} (hregistered : Registered catalog process) (hhanded : messages ⊆ s.handed) :
    Safe (services platform settings) (systemDiscipline platform catalog)
      (fun _ _ => True) (fun _ _ => True) (handleMessages platform process messages accepted)
      s := by
  induction messages generalizing accepted s with
  | nil => trivial
  | cons message rest ih =>
    apply safe_ask (by rintro o' ⟨⟩) (fun _ _ => rfl)
    intro stop t ht
    split
    · trivial
    · have hmem : message ∈ t.handed := ht.handed (hhanded List.mem_cons_self)
      have hone : Safe (services platform settings) (systemDiscipline platform catalog)
          (fun _ _ => True) (fun _ _ => True)
          ((handleMessage platform process message >>= fun _ => .ret (accepted + 1)).tryCatch
            fun _ => .ret accepted) t := by
        refine Safe.tryCatch (Safe.bind (safe_handleMessage hregistered hmem) ?_) ?_
        · intros
          trivial
        · intros
          trivial
      refine Safe.bind hone ?_
      intro _ u hu _
      exact ih (fun m hm => hu.handed (ht.handed (hhanded (List.mem_cons_of_mem _ hm))))

theorem safe_pollOnce {process : Process} (hregistered : Registered catalog process) :
    Safe (services platform settings) (systemDiscipline platform catalog)
      (fun _ _ => True) (fun _ _ => True) (pollOnce platform process) s := by
  apply safe_ask (by rintro o' ⟨⟩) (fun _ _ => rfl)
  intro stop t _
  split
  · trivial
  · apply safe_request (by rintro o' ⟨⟩)
    · intro u oracle _ hinv hfresh
      exact hinv.receive (hfresh rfl)
    · intro u answer _ hfailed
      obtain rfl : answer =
        .error (.scheduleQueue "The PostgreSQL schedule receive failed.") := hfailed
      trivial
    · intro u oracle _ _
      exact safe_handleMessages hregistered (List.subset_append_left _ _)

theorem safe_insertAll {wakeups : List ScheduleWakeup} {produced : ℕ} :
    Safe (services platform settings) (systemDiscipline platform catalog)
      (fun _ _ => True) (fun _ _ => True) (insertAll wakeups produced) s := by
  induction wakeups generalizing produced s with
  | nil => trivial
  | cons wakeup rest ih =>
    apply safe_request (by rintro o' ⟨⟩)
    · intro t oracle _ hinv _
      exact hinv.insert wakeup oracle.databaseNow
    · intro t answer _ hfailed
      obtain rfl : answer = .error .database := hfailed
      trivial
    · intro t oracle _ _
      cases (serve platform settings oracle (.insert wakeup) t).1 with
      | error e => trivial
      | ok inserted => exact ih

end Programs

section Delivery

variable {platform : Platform} {catalog : String → Option ExecutionPlan}
  {settings : QueueSettings}

abbrev ConsumerConfig := Config Request Answer ConsumerError ℕ Work System

abbrev ConsumerEvent := Event Request Answer ConsumerError ℕ Work

/-- Consumers run with plans whose contents are those of their revisions. -/
def Admitted (catalog : String → Option ExecutionPlan) (_ : ConsumerConfig) :
    ConsumerEvent → Prop
  | .issued _ (.poll process) => Registered catalog process
  | _ => True

theorem run_sound {events : List ConsumerEvent} {cfg : ConsumerConfig}
    (run : Run (services platform settings) (perform platform) (Admitted catalog)
      (Config.start System.empty) events cfg) : Sound platform catalog cfg.state := by
  have hstart : Sound platform catalog System.empty :=
    ⟨⟨by simp [System.empty, World.empty], by simp [System.empty]⟩,
      by simp [System.empty, Database.empty], by simp [System.empty, Database.empty],
      by simp [System.empty], by simp [System.empty], by simp [System.empty, Database.empty],
      by simp [System.empty, Database.empty]⟩
  have hstable : ∀ {α : Type} (_ : Work), Stable (systemDiscipline platform catalog)
      (fun (_ : α) (_ : System) => True) := by
    intro α _ a s t _ _
    trivial
  have hsafe := run.poolSafe (D := systemDiscipline platform catalog)
    (fun c => hstable c) (fun c => hstable c) ?_ (PoolSafe.start hstart)
  · exact hsafe.1.1
  · intro cfg i work hadmitted _
    cases work with
    | poll process => exact safe_pollOnce hadmitted
    | enqueue wakeups => exact safe_insertAll

def exampleSettings : QueueSettings := ⟨1, 60, 5, by decide, by decide, by decide⟩

def exampleWakeup : ScheduleWakeup := ⟨"t", Lifecycle.examplePlan.revision, minuteInstant 1⟩

def exampleProcess : Process where
  registry := Lifecycle.exampleRegistry
  triggers := [⟨"t", .schedule, "n", Lifecycle.examplePlan.revision, true, some "* * * * *",
    some "UTC", none⟩]
  sizeDecision _ := none

def exampleOracle : Oracle where
  lifecycle := ⟨minuteInstant 1, ⟨"b", "x"⟩,
    ⟨.running, .unknown, .pending, .pending, minuteInstant 1, none, none⟩⟩
  databaseNow := minuteInstant 1
  receive := ⟨minuteInstant 1, minuteInstant 1, fun _ => minuteInstant 1, fun _ => false,
    fun i => "0c9bb5d2-9d0f-4b76-8c0e-0b9d1f4f2a11" ++ String.ofList (List.replicate i '0')⟩
  graph := .found ⟨"p", "g", "1", Lifecycle.examplePlan.graphContentSha256⟩
  stopped := false

/-- Serves every request, but receives only while no receipt is out. -/
def serveExample (platform : Platform) (o : Request) (s : System) : Option (Answer o × System) :=
  match o with
  | .receive => if s.handed.isEmpty then
      some (serve platform exampleSettings exampleOracle .receive s) else none
  | o => some (serve platform exampleSettings exampleOracle o s)

theorem services_of_serveExample {platform : Platform} (o : Request) (s : System)
    (answer : Answer o) (s' : System) (h : serveExample platform o s = some (answer, s')) :
    (services platform exampleSettings).step o s answer s' := by
  refine ⟨exampleOracle, ?_, ?_⟩
  · rintro rfl
    simp only [serveExample] at h
    split at h
    next hempty =>
      rw [List.isEmpty_iff] at hempty
      refine ⟨?_, by simp [hempty]⟩
      intro i j hij
      have hlength := congrArg String.length hij
      simp only [exampleOracle, String.length_append, String.length_ofList,
        List.length_replicate] at hlength
      omega
    · cases h
  · cases o with
    | receive =>
      simp only [serveExample] at h
      split at h
      · exact .inl (Option.some.inj h)
      · cases h
    | _ => exact .inl (Option.some.inj h)

def examplePlatform : Platform where
  sha256 _ := "bfb30ff9ebce1c2e40f840b6979c8e2491ad0494502d2de4406eac0247908892"
  zoneInfo _ := none

def exampleCatalog (revision : String) : Option ExecutionPlan :=
  if revision = Lifecycle.examplePlan.revision then some Lifecycle.examplePlan else none

/-- Consumers run with the example's plans. -/
def admitsExample (_ : ConsumerConfig) : Work → Bool
  | .poll process => process.registry.plans.all fun plan =>
    decide (exampleCatalog plan.revision = some plan)
  | .enqueue _ => true

theorem admitted_of_admitsExample (cfg : ConsumerConfig) (event : ConsumerEvent)
    (h : ∀ i c, event = .issued i c → admitsExample cfg c = true) :
    Admitted exampleCatalog cfg event := by
  cases event with
  | issued i work =>
    cases work with
    | poll process =>
      have hall := h i _ rfl
      simp only [admitsExample, List.all_eq_true, decide_eq_true_eq] at hall
      exact hall
    | enqueue wakeups => trivial
  | performed i c o r => trivial
  | finished i c out => trivial
  | crashed i => trivial

def WakeupQueued (s : System) : Prop :=
  s.db.inserted = [exampleWakeup] ∧ s.db.queue.length = 1 ∧ s.handed.length = 1

instance : DecidablePred WakeupQueued :=
  fun s => inferInstanceAs (Decidable (s.db.inserted = [exampleWakeup] ∧ _ ∧ _))

end Delivery

end Dander.Consumer
