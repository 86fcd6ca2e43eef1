import Dander.OciLifecycle

/-!
# Container instances and the pipeline lock

An instance may be alive only for the unfinished run that holds the lock. Finishing overwrites
whatever the active object holds, and creating does not look at it, so this rests on what the
active object holds when these calls arrive.
-/
namespace Dander.Oci

open Interleaving ObjectStore

section Property

/-- The record of a run is not, or no longer, the active one. -/
def Released (w : World) (runId : String) : Prop :=
  ∀ version, current w.objects .active = some version → version.value.runId ≠ runId

/-- Every instance of a run whose record is released has ended or been deleted. -/
def NoOrphans (w : World) : Prop :=
  ∀ i ∈ w.instances, Released w i.runId → i.instanceId ∈ w.ended

/-- No two instances are alive together. -/
def OneAlive (w : World) : Prop :=
  ∀ i ∈ w.instances, ∀ j ∈ w.instances, i.instanceId ∉ w.ended → j.instanceId ∉ w.ended → i = j

/-- An instance is only created for an attempt that the active record is still waiting for, and
a terminal record only replaces one that names the same attempt and the same instance, or no
instance where none was created. -/
def Attributed : Request → World → Prop
  | .create execution, w =>
    (∃ i ∈ w.instances, i.runId = execution.runId ∧ i.attempt = execution.attempt) ∨
      ∃ version ∈ current w.objects .active, version.value.terminal = false ∧
        version.value.runId = execution.runId ∧ version.value.attempt = execution.attempt
  | .putObject .active execution (some etag), w =>
    execution.terminal = true → ∀ version ∈ current w.objects .active, version.etag = etag →
      version.value.attempt = execution.attempt ∧
        version.value.instanceId = execution.instanceId ∧
        (execution.instanceId = none → ∀ i ∈ w.instances,
          i.runId = execution.runId → i.attempt ≠ execution.attempt)
  | _, _ => True

end Property

section Invariant

/-- The record is unfinished, and the instance is of its run and attempt. -/
structure Holds (execution : OciExecution) (i : Instance) : Prop where
  unfinished : execution.terminal = false
  runId : execution.runId = i.runId
  attempt : execution.attempt = i.attempt
  named : execution.instanceId = none ∨ execution.instanceId = some i.instanceId

/-- What every stored record says of its instance. -/
structure Known (w : World) (execution : OciExecution) : Prop where
  pending : execution.state = .pending → execution.instanceId = none
  created : ∀ instanceId ∈ execution.instanceId, ∃ i ∈ w.instances,
    i.instanceId = instanceId ∧ i.runId = execution.runId ∧ i.attempt = execution.attempt
  ended : execution.terminal = true → ∀ instanceId ∈ execution.instanceId, instanceId ∈ w.ended

structure Attached (w : World) : Prop where
  live : ∀ i ∈ w.instances, i.instanceId ∉ w.ended →
    ∃ version, current w.objects .active = some version ∧ Holds version.value i
  unique : ∀ i ∈ w.instances, ∀ j ∈ w.instances,
    i.runId = j.runId → i.attempt = j.attempt → i = j
  writes : ∀ write ∈ w.objects, ∀ execution ∈ write.value, Known w execution

structure Grows (w later : World) : Prop where
  objects : w.objects <:+ later.objects
  instances : w.instances ⊆ later.instances
  ended : w.ended ⊆ later.ended

theorem Grows.rfl' (w : World) : Grows w w :=
  ⟨List.suffix_refl _, List.Subset.refl _, List.Subset.refl _⟩

theorem Grows.trans {a b c : World} (hab : Grows a b) (hbc : Grows b c) : Grows a c :=
  ⟨hab.objects.trans hbc.objects, List.Subset.trans hab.instances hbc.instances,
    List.Subset.trans hab.ended hbc.ended⟩

def attachment : Discipline World where
  inv := Attached
  le := Grows
  refl := Grows.rfl'
  trans _ _ _ := Grows.trans

variable {w later : World} {execution : OciExecution}

theorem Known.mono (h : Known w execution) (hle : Grows w later) : Known later execution := by
  refine ⟨h.pending, ?_, ?_⟩
  · intro instanceId hmem
    obtain ⟨i, hi, hid⟩ := h.created instanceId hmem
    exact ⟨i, hle.instances hi, hid⟩
  · intro hterminal instanceId hmem
    exact hle.ended (h.ended hterminal instanceId hmem)

/-- An attached world has no orphans, and at most one instance is alive in it. -/
theorem Attached.noOrphans (hinv : Attached w) : NoOrphans w := by
  intro i hi hreleased
  by_contra hlive
  obtain ⟨version, hcurrent, hholds⟩ := hinv.live i hi hlive
  exact hreleased version hcurrent hholds.runId

theorem Attached.oneAlive (hinv : Attached w) : OneAlive w := by
  intro i hi j hj hli hlj
  obtain ⟨version, hcurrent, hholds⟩ := hinv.live i hi hli
  obtain ⟨other, hother, hholds'⟩ := hinv.live j hj hlj
  obtain rfl : version = other := by
    rw [hcurrent] at hother
    exact Option.some.inj hother
  exact hinv.unique i hi j hj (hholds.runId.symm.trans hholds'.runId)
    (hholds.attempt.symm.trans hholds'.attempt)

/-- A record under the tag the store gave it. -/
def Recorded (w : World) (stored : StoredExecution) : Prop :=
  ∃ key author, recorded w.objects stored.version = some ⟨key, some stored.execution, author⟩

theorem Recorded.mono {stored : StoredExecution} (h : Recorded w stored)
    (hle : w.objects <:+ later.objects) : Recorded later stored := by
  obtain ⟨key, author, hrecorded⟩ := h
  exact ⟨key, author, recorded_mono hle hrecorded⟩

theorem recorded_of_version {key : Key} {version : Version OciExecution}
    (h : current w.objects key = some version) : Recorded w ⟨version.value, version.etag⟩ := by
  obtain ⟨author, hrecorded⟩ := recorded_of_current h
  exact ⟨key, author, hrecorded⟩

/-- The version with a recorded tag holds the record. -/
theorem Recorded.value_eq {stored : StoredExecution} (h : Recorded w stored) {key : Key}
    {version : Version OciExecution} (hcurrent : current w.objects key = some version)
    (hetag : version.etag = stored.version) : version.value = stored.execution := by
  obtain ⟨key', author, hrecorded⟩ := h
  obtain ⟨author', hrecorded'⟩ := recorded_of_current hcurrent
  rw [hetag, hrecorded] at hrecorded'
  simp only [Option.some.injEq, Write.mk.injEq] at hrecorded'
  exact hrecorded'.2.1.symm

/-- A record that came from the store. -/
structure Genuine (w : World) (stored : StoredExecution) : Prop where
  recorded : Recorded w stored
  known : Known w stored.execution

theorem Genuine.mono {stored : StoredExecution} (h : Genuine w stored) (hle : Grows w later) :
    Genuine later stored :=
  ⟨h.recorded.mono hle.objects, h.known.mono hle⟩

theorem Attached.genuine (hinv : Attached w) {stored : StoredExecution} (h : Recorded w stored) :
    Genuine w stored := by
  refine ⟨h, ?_⟩
  obtain ⟨key, author, hrecorded⟩ := h
  exact hinv.writes _ (mem_of_recorded hrecorded) _ rfl

theorem Attached.genuine_of_current (hinv : Attached w) {key : Key}
    {version : Version OciExecution} (h : current w.objects key = some version) :
    Genuine w ⟨version.value, version.etag⟩ :=
  hinv.genuine (recorded_of_version h)

end Invariant

section Steps

/-- What a worker has to know when it makes a request. -/
def Sound : Request → World → Prop
  | .putObject .active execution none, w => Known w execution
  | .putObject .active execution (some etag), w =>
    Known w execution ∧ ∀ version ∈ current w.objects .active, version.etag = etag →
      version.value.runId = execution.runId ∧
        (execution.terminal = false → ∀ i ∈ w.instances, i.instanceId ∉ w.ended →
          Holds version.value i → Holds execution i)
  | .putObject (.history _) execution _, w => Known w execution
  | .deleteObject .active etag, w =>
    ∀ version ∈ current w.objects .active, version.etag = etag → version.value.terminal = true
  | _, _ => True

variable {w : World}

theorem Attached.writes_mono (hinv : Attached w) {later : World} (hle : Grows w later)
    {write : Write Key OciExecution} (hmem : write ∈ w.objects) :
    ∀ execution ∈ write.value, Known later execution :=
  fun execution hvalue => (hinv.writes write hmem execution hvalue).mono hle

/-- A write is consistent if its record is known and the active record after it holds every
live instance. -/
theorem Attached.write (hinv : Attached w) {write : Write Key OciExecution}
    (hknown : ∀ execution ∈ write.value, Known w execution)
    (hlive : ∀ i ∈ w.instances, i.instanceId ∉ w.ended →
      ∃ version, current (write :: w.objects) .active = some version ∧ Holds version.value i) :
    Attached { w with objects := write :: w.objects } ∧
      Grows w { w with objects := write :: w.objects } := by
  have hle : Grows w { w with objects := write :: w.objects } :=
    ⟨List.suffix_cons _ _, List.Subset.refl _, List.Subset.refl _⟩
  refine ⟨⟨hlive, hinv.unique, ?_⟩, hle⟩
  intro other hmem execution hvalue
  rcases List.mem_cons.mp hmem with rfl | hold
  · exact (hknown execution hvalue).mono hle
  · exact hinv.writes_mono hle hold execution hvalue

theorem putObject_attached (hinv : Attached w) {key : Key} {execution : OciExecution}
    {ifMatch : Option ℕ} (hattributed : Attributed (.putObject key execution ifMatch) w)
    (hsound : Sound (.putObject key execution ifMatch) w) :
    Attached (w.putObject key execution ifMatch).2 ∧
      Grows w (w.putObject key execution ifMatch).2 := by
  unfold World.putObject
  split
  next htag =>
    cases key with
    | history runId =>
      apply hinv.write
      · rintro _ ⟨⟩
        exact hsound
      · intro i hi hlive
        rw [current_cons_of_ne (by simp)]
        exact hinv.live i hi hlive
    | active =>
      cases ifMatch with
      | none =>
        apply hinv.write
        · rintro _ ⟨⟩
          exact hsound
        · intro i hi hlive
          obtain ⟨version, hcurrent, -⟩ := hinv.live i hi hlive
          rw [tag_eq_none, hcurrent] at htag
          cases htag
      | some etag =>
        obtain ⟨value, hcurrent⟩ := tag_eq_some.mp htag
        obtain ⟨hrun, hsuccessor⟩ := hsound.2 _ hcurrent rfl
        apply hinv.write
        · rintro _ ⟨⟩
          exact hsound.1
        · intro i hi hlive
          obtain ⟨version, hcurrent', hholds⟩ := hinv.live i hi hlive
          rw [hcurrent, Option.some.injEq] at hcurrent'
          subst hcurrent'
          refine ⟨⟨w.objects.length, execution⟩, by simp [current], ?_⟩
          by_cases hterminal : execution.terminal = true
          · obtain ⟨hattempt, hinstance, hnone⟩ := hattributed hterminal _ hcurrent rfl
            cases hid : execution.instanceId with
            | none =>
              exact (hnone hid i hi (hholds.runId.symm.trans hrun)
                (hholds.attempt.symm.trans hattempt)).elim
            | some instanceId =>
              have hsame : instanceId = i.instanceId := by
                rcases hholds.named with h | h <;> rw [hinstance, hid] at h
                · cases h
                · exact Option.some.inj h
              have hended := hsound.1.ended hterminal instanceId hid
              rw [hsame] at hended
              exact (hlive hended).elim
          · exact hsuccessor (by simpa using hterminal) i hi hlive hholds
  · exact ⟨hinv, Grows.rfl' w⟩

theorem deleteObject_attached (hinv : Attached w) {key : Key} {ifMatch : ℕ}
    (hsound : Sound (.deleteObject key ifMatch) w) :
    Attached (w.deleteObject key ifMatch).2 ∧ Grows w (w.deleteObject key ifMatch).2 := by
  unfold World.deleteObject
  split
  · exact ⟨hinv, Grows.rfl' w⟩
  next etag htag =>
    split
    next heq =>
      apply hinv.write
      · rintro _ ⟨⟩
      · intro i hi hlive
        obtain ⟨version, hcurrent, hholds⟩ := hinv.live i hi hlive
        cases key with
        | history runId =>
          rw [current_cons_of_ne (by simp)]
          exact ⟨version, hcurrent, hholds⟩
        | active =>
          have hetag : version.etag = ifMatch := by
            rw [tag, hcurrent, Option.map_some, Option.some.injEq] at htag
            rw [htag, heq]
          have hterminal := hsound version hcurrent hetag
          rw [hholds.unfinished] at hterminal
          cases hterminal
    · exact ⟨hinv, Grows.rfl' w⟩

/-- A new instance belongs to the active record, which names no other. -/
theorem create_attached (hinv : Attached w) {execution : OciExecution} {instanceId : String}
    (hattributed : Attributed (.create execution) w) :
    Attached (w.create execution instanceId).2 ∧ Grows w (w.create execution instanceId).2 := by
  unfold World.create
  split
  · exact ⟨hinv, Grows.rfl' w⟩
  next hfind =>
    split
    · exact ⟨hinv, Grows.rfl' w⟩
    · have hnew : ∀ i ∈ w.instances, i.runId = execution.runId →
          i.attempt ≠ execution.attempt := by
        intro i hi hrun hattempt
        have hne := List.find?_eq_none.mp hfind i hi
        simp [hrun, hattempt] at hne
      have hle : Grows w { w with
          instances := ⟨instanceId, execution.runId, execution.attempt⟩ :: w.instances } :=
        ⟨List.suffix_refl _, List.subset_cons_self _ _, List.Subset.refl _⟩
      refine ⟨⟨?_, ?_, fun write hmem => hinv.writes_mono hle hmem⟩, hle⟩
      · intro i hi hlive
        rcases List.mem_cons.mp hi with rfl | hold
        · rcases hattributed with ⟨j, hj, hrun, hattempt⟩ | ⟨version, hcurrent, hactive, hrun, hattempt⟩
          · exact (hnew j hj hrun hattempt).elim
          · refine ⟨version, hcurrent, hactive, hrun, hattempt, ?_⟩
            cases hid : version.value.instanceId with
            | none => exact .inl rfl
            | some named =>
              obtain ⟨j, hj, -, hjrun, hjattempt⟩ :=
                (hinv.genuine_of_current hcurrent).known.created named hid
              exact (hnew j hj (hjrun.trans hrun) (hjattempt.trans hattempt)).elim
        · exact hinv.live i hold hlive
      · intro i hi j hj hrun hattempt
        rcases List.mem_cons.mp hi with rfl | hi'
        · rcases List.mem_cons.mp hj with rfl | hj'
          · rfl
          · exact (hnew j hj' hrun.symm hattempt.symm).elim
        · rcases List.mem_cons.mp hj with rfl | hj'
          · exact (hnew i hi' hrun hattempt).elim
          · exact hinv.unique i hi' j hj' hrun hattempt

/-- Instances that end leave the world attached. -/
theorem settle_attached (hinv : Attached w) (ended : List String) :
    Attached (w.settle ended) ∧ Grows w (w.settle ended) := by
  have hle : Grows w (w.settle ended) :=
    ⟨List.suffix_refl _, List.Subset.refl _, List.subset_append_right _ _⟩
  refine ⟨⟨?_, hinv.unique, fun write hmem => hinv.writes_mono hle hmem⟩, hle⟩
  intro i hi hlive
  exact hinv.live i hi (fun hmem => hlive (hle.ended hmem))

theorem respond_attached (hinv : Attached w) (oracle : Oracle) {o : Request}
    (hattributed : Attributed o w) (hsound : Sound o w) :
    Attached (w.respond oracle o).2 ∧ Grows w (w.respond oracle o).2 := by
  cases o with
  | putObject key execution ifMatch => exact putObject_attached hinv hattributed hsound
  | deleteObject key ifMatch => exact deleteObject_attached hinv hsound
  | create execution => exact create_attached hinv hattributed
  | delete instanceId => exact settle_attached hinv [instanceId]
  | putLogs runId attempt content =>
    have hle : Grows w (w.respond oracle (.putLogs runId attempt content)).2 :=
      ⟨List.suffix_refl _, List.Subset.refl _, List.Subset.refl _⟩
    exact ⟨⟨hinv.live, hinv.unique, fun write hmem => hinv.writes_mono hle hmem⟩, hle⟩
  | getObject key => exact ⟨hinv, Grows.rfl' w⟩
  | status instanceId => exact ⟨hinv, Grows.rfl' w⟩
  | stop instanceId => exact ⟨hinv, Grows.rfl' w⟩
  | logs containerId => exact ⟨hinv, Grows.rfl' w⟩
  | clock => exact ⟨hinv, Grows.rfl' w⟩

theorem Attributed.settle {o : Request} (h : Attributed o w) (ended : List String) :
    Attributed o (w.settle ended) := by
  cases o with
  | putObject key execution ifMatch => cases key <;> cases ifMatch <;> exact h
  | _ => exact h

theorem Sound.settle {o : Request} (h : Sound o w) (hle : Grows w (w.settle ended)) :
    Sound o (w.settle ended) := by
  cases o with
  | putObject key execution ifMatch =>
    cases key with
    | history runId => exact Known.mono h hle
    | active =>
      cases ifMatch with
      | none => exact Known.mono h hle
      | some etag =>
        refine ⟨h.1.mono hle, fun version hcurrent hetag => ?_⟩
        obtain ⟨hrun, hsuccessor⟩ := h.2 version hcurrent hetag
        exact ⟨hrun, fun hactive i hi hlive =>
          hsuccessor hactive i hi (fun hmem => hlive (hle.ended hmem))⟩
  | deleteObject key ifMatch => cases key <;> exact h
  | _ => trivial

/-- Every request a worker may make keeps the world attached. -/
theorem serve_attached (hinv : Attached w) (oracle : Oracle) {o : Request}
    (hattributed : Attributed o w) (hsound : Sound o w) :
    Attached (serve oracle o w).2 ∧ Grows w (serve oracle o w).2 := by
  obtain ⟨hsettled, hle⟩ := settle_attached hinv oracle.ended
  obtain ⟨hinv', hle'⟩ := respond_attached hsettled oracle (hattributed.settle oracle.ended)
    (hsound.settle hle)
  exact ⟨hinv', hle.trans hle'⟩

end Steps

section Programs

/-- The services while instances are created for, and runs finished at, what the active object
still holds. -/
def attributedServices : Machine Request Answer World := services.restrict Attributed

/-- Safety of a controller program; an error promises nothing. -/
def Keeps {α : Type} (p : Action α) (Q : α → World → Prop) (w : World) : Prop :=
  Safe attributedServices attachment Q (fun _ _ => True) p w

variable {α β : Type} {w : World} {Q : α → World → Prop} {R : β → World → Prop}

/-- One request: what must be known of it, and how the worker goes on. -/
theorem keeps_request {o : Request} {next : Answer o → Action α}
    (hsound : ∀ t, Grows w t → Attached t → Sound o t)
    (hfailed : ∀ answer t, Grows w t → Failed o answer → Keeps (next answer) Q t)
    (hserved : ∀ t oracle, Grows w t → Attached t → Attached (serve oracle o t).2 →
      Grows t (serve oracle o t).2 → Keeps (next (serve oracle o t).1) Q (serve oracle o t).2) :
    Keeps (.call o next) Q w := by
  apply Safe.request
  · intro t oracle ht hinv hattributed
    exact serve_attached hinv oracle hattributed (hsound t ht hinv)
  · intro answer t ht _ hfail
    exact hfailed answer t ht hfail
  · intro t oracle ht hinv _ hinv' hle
    exact hserved t oracle ht hinv hinv' hle

theorem keeps_bind {p : Action α} {f : α → Action β} (hp : Keeps p Q w)
    (hf : ∀ a t, Grows w t → Q a t → Keeps (f a) R t) : Keeps (p >>= f) R w :=
  Safe.bind hp hf

/-- A request that needs nothing, after which nothing is known. -/
theorem keeps_plain {o : Request} {next : Answer o → Action α} (hsound : ∀ t, Sound o t)
    (hnext : ∀ answer t, Grows w t → Keeps (next answer) Q t) : Keeps (.call o next) Q w :=
  keeps_request (fun t _ _ => hsound t) (fun answer t ht _ => hnext answer t ht)
    (fun _ _ ht _ _ hle => hnext _ _ (ht.trans hle))

/-- A conditional put, after which the record has a tag, or which is refused. -/
theorem keeps_put {key : Key} {execution : OciExecution} {ifMatch : Option ℕ}
    {next : Except ServiceError ℕ → Action α}
    (hsound : ∀ t, Grows w t → Attached t → Sound (.putObject key execution ifMatch) t)
    (hfailed : ∀ t, Grows w t → Keeps (next (.error .other)) Q t)
    (hrefused : ∀ t, Grows w t → Keeps (next (.error .preconditionFailed)) Q t)
    (hput : ∀ t etag, Grows w t → Genuine t ⟨execution, etag⟩ → Keeps (next (.ok etag)) Q t) :
    Keeps (.call (.putObject key execution ifMatch) next) Q w := by
  apply keeps_request hsound
  · rintro answer t ht rfl
    exact hfailed t ht
  · intro t oracle ht _ hinv hle
    have hserve : serve oracle (.putObject key execution ifMatch) t =
      (t.settle oracle.ended).putObject key execution ifMatch := rfl
    rw [hserve] at hinv hle ⊢
    unfold World.putObject at hinv hle ⊢
    by_cases htag : tag (t.settle oracle.ended).objects key = ifMatch
    · rw [if_pos htag] at hinv hle ⊢
      exact hput _ _ (ht.trans hle) (hinv.genuine ⟨key, 0, by simp [recorded]⟩)
    · rw [if_neg htag] at hle ⊢
      exact hrefused _ (ht.trans hle)

theorem keeps_read {key : Key} :
    Keeps (read key) (fun stored t => ∀ version ∈ stored, Genuine t version) w := by
  apply keeps_request
  · intros
    trivial
  · rintro answer t _ rfl
    trivial
  · intro t oracle _ hinv _ hle
    have hanswer : (serve oracle (.getObject key) t).1 = t.getObject key := rfl
    rw [hanswer]
    unfold World.getObject
    cases hcurrent : current t.objects key with
    | none => rintro version ⟨⟩
    | some version =>
      rintro _ ⟨⟩
      exact (hinv.genuine_of_current hcurrent).mono hle

theorem keeps_get {runId : Option String} :
    Keeps (get runId) (fun stored t => ∀ version ∈ stored, Genuine t version) w := by
  have hhistorical : ∀ t, Keeps (get.historical runId)
      (fun stored t => ∀ version ∈ stored, Genuine t version) t := by
    intro t
    unfold get.historical
    split
    · rintro version ⟨⟩
    · exact keeps_read
  apply keeps_bind keeps_read
  intro active t _ hactive
  cases active with
  | none => exact hhistorical t
  | some stored =>
    simp only
    split
    · exact hactive
    · exact hhistorical t

/-- A claimed record that the store holds, and the caller's own if the lock is new. -/
theorem keeps_claim {execution : OciExecution} (hpending : execution.terminal = false)
    (hinstance : execution.instanceId = none) :
    Keeps (claim execution) (fun claimed t => Genuine t claimed.1 ∧
      (claimed.2 = true → claimed.1.execution = execution)) w := by
  apply keeps_bind keeps_read
  intro historical t _ hhistorical
  cases historical with
  | some stored => exact ⟨hhistorical stored rfl, fun h => by cases h⟩
  | none =>
    apply keeps_put
    · intro u _ _
      refine ⟨fun _ => hinstance, ?_, ?_⟩
      · rw [hinstance]
        rintro _ ⟨⟩
      · rw [hpending]
        rintro ⟨⟩
    · intros
      trivial
    · intro u _
      apply keeps_bind keeps_read
      intro active v _ hactive
      cases active with
      | none => trivial
      | some stored => exact ⟨hactive stored rfl, fun h => by cases h⟩
    · intro u etag _ hgenuine
      exact ⟨hgenuine, fun _ => rfl⟩

theorem keeps_requireSameRun {existing updated : OciExecution} :
    Keeps (requireSameRun existing updated) (fun _ _ => existing.runId = updated.runId) w := by
  unfold requireSameRun
  split
  next h => exact h.2
  · trivial

/-- Saving at a genuine record's tag. -/
theorem keeps_save {stored : StoredExecution} {execution : OciExecution}
    (hgenuine : Genuine w stored) (hknown : Known w execution)
    (hsuccessor : stored.execution.runId = execution.runId → execution.terminal = false →
      ∀ t, Grows w t → Attached t → ∀ i ∈ t.instances, i.instanceId ∉ t.ended →
        Holds stored.execution i → Holds execution i) :
    Keeps (save stored execution)
      (fun saved t => Genuine t saved ∧ saved.execution = execution) w := by
  apply keeps_bind keeps_requireSameRun
  intro _ t ht hrun
  apply keeps_put
  · intro u hu hinv
    refine ⟨hknown.mono (ht.trans hu), fun version hcurrent hetag => ?_⟩
    rw [(hgenuine.mono (ht.trans hu)).recorded.value_eq hcurrent hetag]
    exact ⟨hrun, fun hactive => hsuccessor hrun hactive u (ht.trans hu) hinv⟩
  · intros
    trivial
  · intros
    trivial
  · intro u etag _ hsaved
    exact ⟨hsaved, rfl⟩

theorem keeps_preserve {execution : OciExecution} (hknown : Known w execution) :
    Keeps (preserve execution) (fun _ _ => True) w := by
  apply keeps_put
  · intro t ht _
    exact hknown.mono ht
  · intros
    trivial
  · intro t _
    apply keeps_bind keeps_read
    intro existing u _ _
    cases existing with
    | none => trivial
    | some stored =>
      simp only
      split <;> trivial
  · intros
    trivial

/-- Releasing the lock at the tag of a terminal record. -/
theorem keeps_release {stored : StoredExecution} (hgenuine : Genuine w stored)
    (hterminal : stored.execution.terminal = true) :
    Keeps (release stored.version) (fun _ _ => True) w := by
  apply keeps_request
  · intro t ht _ version hcurrent hetag
    rw [(hgenuine.mono ht).recorded.value_eq hcurrent hetag]
    exact hterminal
  · rintro answer t _ rfl
    trivial
  · intro t oracle _ _ _ _
    generalize (serve oracle (.deleteObject .active stored.version) t).1 = answer
    rcases answer with e | ⟨⟩
    · cases e <;> trivial
    · trivial

theorem keeps_finish {stored : StoredExecution} {execution : OciExecution}
    (hknown : Known w execution) : Keeps (finish stored execution) (fun _ _ => True) w := by
  unfold finish
  split
  · trivial
  next hterminal =>
    simp only [Bool.not_eq_true', Bool.not_eq_false] at hterminal
    apply keeps_bind keeps_read
    intro active t ht hactive
    cases active with
    | none =>
      apply keeps_bind keeps_read
      intro historical u _ _
      cases historical with
      | none => trivial
      | some stored =>
        simp only
        split <;> trivial
    | some active =>
      apply keeps_bind keeps_requireSameRun
      intro _ u hu _
      have hle := ht.trans hu
      apply keeps_bind
      · apply keeps_save ((hactive active rfl).mono hu) (hknown.mono hle)
        intro _ hunfinished
        rw [hterminal] at hunfinished
        cases hunfinished
      · rintro saved v hv ⟨hsaved, hexecution⟩
        apply keeps_bind (keeps_preserve (hknown.mono (hle.trans hv)))
        intro version x hx _
        apply keeps_bind
        · apply keeps_release (hsaved.mono hx)
          rw [hexecution]
          exact hterminal
        · intros
          trivial

theorem keeps_saveLogs {execution : OciExecution} {content : List UInt8} :
    Keeps (saveLogs execution content) (fun _ _ => True) w := by
  apply keeps_plain
  · intros
    trivial
  · rintro (e | ⟨⟩) t _ <;> trivial

theorem keeps_captureLogs {execution : OciExecution} :
    Keeps (captureLogs execution) (fun _ _ => True) w := by
  unfold captureLogs
  split
  · trivial
  · apply keeps_plain
    · intros
      trivial
    · rintro (_ | content) t _
      · trivial
      · exact keeps_saveLogs

theorem keeps_deleteInstance {instanceId : String} :
    Keeps (deleteInstance instanceId) (fun _ t => instanceId ∈ t.ended) w := by
  apply keeps_request
  · intros
    trivial
  · rintro answer t _ rfl
    trivial
  · intro t oracle _ _ _ _
    exact List.mem_cons_self

/-- Whether or not stopping works, the instance is deleted if the program goes on. -/
theorem keeps_stopCaptureDelete {execution : OciExecution} :
    Keeps (stopCaptureDelete execution)
      (fun _ t => ∀ instanceId ∈ execution.instanceId, instanceId ∈ t.ended) w := by
  unfold stopCaptureDelete
  split
  next hnone =>
    rw [hnone]
    rintro _ ⟨⟩
  next instanceId hsome =>
    have hdelete : ∀ t, Keeps (deleteInstance instanceId)
        (fun _ t => ∀ instanceId ∈ execution.instanceId, instanceId ∈ t.ended) t := by
      intro t
      apply Safe.weaken keeps_deleteInstance
      · intro _ u _ hended
        rw [hsome]
        rintro _ ⟨⟩
        exact hended
      · intros
        trivial
    have hstop : ∀ t, Keeps (captureLogs execution >>= fun _ =>
        .call (.stop instanceId) fun (answer : Option Unit) => gatewayCall answer)
        (fun _ _ => True) t := by
      intro t
      apply keeps_bind keeps_captureLogs
      intro _ u _ _
      apply keeps_plain
      · intros
        trivial
      · rintro (_ | _) v _ <;> trivial
    have hcaught : Keeps (Prog.tryCatch
        (captureLogs execution >>= fun _ =>
          .call (.stop instanceId) fun (answer : Option Unit) => gatewayCall answer)
        (fun error => deleteInstance instanceId >>= fun _ => .raise error))
        (fun _ _ => True) w := by
      apply Safe.tryCatch (hstop w)
      intro error t _ _
      apply keeps_bind keeps_deleteInstance
      intros
      trivial
    exact keeps_bind hcaught (fun _ t _ _ => hdelete t)

theorem keeps_clock {next : ℤ → Action α} (hnext : ∀ now t, Grows w t → Keeps (next now) Q t) :
    Keeps (.call .clock next) Q w :=
  keeps_plain (fun _ => trivial) hnext

/-- Finishing a record whose instance, if it names one, has ended. -/
theorem keeps_finishAs {stored : StoredExecution} {state : ExecutionState}
    {failureCode : Option String} {execution : Option OciExecution}
    (hstate : state ≠ .pending) (hknown : Known w (execution.getD stored.execution))
    (hended : ∀ instanceId ∈ (execution.getD stored.execution).instanceId,
      instanceId ∈ w.ended) :
    Keeps (finishAs stored state failureCode execution) (fun _ _ => True) w := by
  apply keeps_clock
  intro now t ht
  apply keeps_finish
  refine ⟨fun hpending => (hstate hpending).elim, (hknown.mono ht).created, ?_⟩
  intro _ instanceId hmem
  exact ht.ended (hended instanceId hmem)

theorem create_answer {execution : OciExecution} {fresh instanceId : String}
    (h : (w.create execution fresh).1 = some instanceId) :
    ∃ i ∈ (w.create execution fresh).2.instances, i.instanceId = instanceId ∧
      i.runId = execution.runId ∧ i.attempt = execution.attempt := by
  unfold World.create at h ⊢
  split at h
  next i hfind =>
    have hmatches := List.find?_some hfind
    rw [Bool.and_eq_true, decide_eq_true_eq, decide_eq_true_eq] at hmatches
    exact ⟨i, List.mem_of_find?_eq_some hfind, Option.some.inj h, hmatches⟩
  · split at h
    · cases h
    next hfresh =>
      rw [if_neg hfresh]
      exact ⟨_, List.mem_cons_self, Option.some.inj h, rfl, rfl⟩

/-- Launching an attempt whose record names no instance yet. -/
theorem keeps_launch {stored : StoredExecution} (hgenuine : Genuine w stored)
    (hnone : stored.execution.instanceId = none) :
    Keeps (launch stored) (fun _ _ => True) w := by
  have hfailure : ∀ t, Grows w t → Keeps (finishAs stored .failed (some "launcher_create_failed")
      none >>= fun _ => (.raise (.lifecycle "OCI Container Instance creation failed") :
        Action StoredExecution)) (fun _ _ => True) t := by
    intro t ht
    apply keeps_bind
    · apply keeps_finishAs (by simp)
      · refine ⟨fun _ => hnone, ?_, ?_⟩
        · simp [hnone]
        · simp [hnone]
      · simp [hnone]
    · intros
      trivial
  apply keeps_request
  · intros
    trivial
  · rintro answer t ht rfl
    exact hfailure t ht
  · intro t oracle ht _ _ hle
    have hanswer : (serve oracle (.create stored.execution) t).1 =
      ((t.settle oracle.ended).create stored.execution oracle.instanceId).1 := rfl
    have hlater : (serve oracle (.create stored.execution) t).2 =
      ((t.settle oracle.ended).create stored.execution oracle.instanceId).2 := rfl
    cases hcreated : (serve oracle (.create stored.execution) t).1 with
    | none => exact hfailure _ (ht.trans hle)
    | some instanceId =>
      rw [hanswer] at hcreated
      obtain ⟨i, hi, hid, hrun, hattempt⟩ := create_answer hcreated
      rw [← hlater] at hi
      apply keeps_clock
      intro now u hu
      apply Safe.weaken
      · apply keeps_save (hgenuine.mono ((ht.trans hle).trans hu))
        · refine ⟨?_, ?_, ?_⟩
          · rintro ⟨⟩
          · rintro _ ⟨⟩
            exact ⟨i, hu.instances hi, hid, hrun, hattempt⟩
          · rintro ⟨⟩
        · intro _ _ v hv hinv j hj _ hholds
          have hsame : j = i := hinv.unique j hj i (hv.instances (hu.instances hi))
            (hholds.runId.symm.trans hrun.symm) (hholds.attempt.symm.trans hattempt.symm)
          refine ⟨rfl, hholds.runId, hholds.attempt, .inr ?_⟩
          rw [hsame, hid]
      · intros
        trivial
      · intros
        trivial

/-- An attempt that names its instance is deleted before the run ends or is tried again. -/
theorem keeps_reconcileEnded {stored : StoredExecution} {instanceId : String} {now : ℤ}
    {status : OciInstanceStatus} (hgenuine : Genuine w stored)
    (hunfinished : stored.execution.terminal = false)
    (hstate : stored.execution.state ≠ .pending)
    (hinstance : stored.execution.instanceId = some instanceId) :
    Keeps (reconcileEnded stored instanceId now status) (fun _ _ => True) w := by
  unfold reconcileEnded
  apply keeps_bind keeps_captureLogs
  intro _ t ht _
  apply keeps_bind keeps_deleteInstance
  intro _ u hu hended
  have hle := ht.trans hu
  have hknown' : ∀ updated : OciExecution, updated.state = stored.execution.state →
      updated.instanceId = stored.execution.instanceId → updated.runId = stored.execution.runId →
      updated.attempt = stored.execution.attempt → Known u updated := by
    intro updated hs hi hr ha
    have h := hgenuine.known.mono hle
    refine ⟨fun hpending => (hstate (hs.symm.trans hpending)).elim, ?_, ?_⟩
    · rw [hi, hr, ha]
      exact h.created
    · intro hterminal
      unfold OciExecution.terminal at hterminal hunfinished
      rw [hs, hunfinished] at hterminal
      cases hterminal
  have hended' : ∀ id ∈ stored.execution.instanceId, id ∈ u.ended := by
    rw [hinstance]
    rintro _ ⟨⟩
    exact hended
  split
  · apply keeps_finishAs (by simp) (hknown' _ rfl rfl rfl rfl)
    exact hended'
  · split
    next left =>
      apply keeps_bind
      · apply keeps_save (hgenuine.mono hle)
        · exact ⟨fun _ => rfl, by rintro _ ⟨⟩, by rintro ⟨⟩⟩
        · intro _ _ v hv _ i _ hlive hholds
          have hsame : i.instanceId = instanceId := by
            rcases hholds.named with h | h <;> rw [hinstance] at h
            · cases h
            · exact (Option.some.inj h).symm
          rw [hsame] at hlive
          exact (hlive (hv.ended hended)).elim
      · rintro saved v _ ⟨hsaved, hexecution⟩
        apply keeps_launch hsaved
        rw [hexecution]
        rfl
    · apply keeps_finishAs (by simp) (hknown' _ rfl rfl rfl rfl)
      exact hended'

theorem keeps_reconcileInstance {stored : StoredExecution} {instanceId : String}
    (hgenuine : Genuine w stored) (hunfinished : stored.execution.terminal = false)
    (hstate : stored.execution.state ≠ .pending)
    (hinstance : stored.execution.instanceId = some instanceId) :
    Keeps (reconcileInstance stored instanceId) (fun _ _ => True) w := by
  apply keeps_clock
  intro now t ht
  split
  · apply keeps_bind keeps_stopCaptureDelete
    intro _ u hu hended
    exact keeps_finishAs (by simp) (hgenuine.known.mono (ht.trans hu)) hended
  · apply keeps_plain
    · intros
      trivial
    · rintro (_ | status) u hu
      · trivial
      · have hle := ht.trans hu
        simp only [gatewayCall, Prog.ret_bind]
        split
        · apply keeps_bind keeps_captureLogs
          intro _ v hv _
          apply Safe.weaken
          · apply keeps_save (hgenuine.mono (hle.trans hv))
            · refine ⟨?_, (hgenuine.known.mono (hle.trans hv)).created, ?_⟩
              · rintro ⟨⟩
              · rintro ⟨⟩
            · intro _ _ x _ _ i _ _ hholds
              exact ⟨rfl, hholds.runId, hholds.attempt, hholds.named⟩
          · intros
            trivial
          · intros
            trivial
        · exact keeps_reconcileEnded (hgenuine.mono hle) hunfinished hstate hinstance

theorem keeps_reconcileStored {stored : StoredExecution} (hgenuine : Genuine w stored) :
    Keeps (reconcileStored stored) (fun _ _ => True) w := by
  unfold reconcileStored
  split
  · exact keeps_finish hgenuine.known
  next hterminal =>
    have hunfinished : stored.execution.terminal = false := by simpa using hterminal
    split
    next hpending => exact keeps_launch hgenuine (hgenuine.known.pending hpending)
    next hstate =>
      split
      next hnone => exact keeps_launch hgenuine hnone
      next instanceId hinstance =>
        exact keeps_reconcileInstance hgenuine hunfinished hstate hinstance

theorem keeps_reconcile {runId : Option String} : Keeps (reconcile runId) (fun _ _ => True) w := by
  apply keeps_bind keeps_get
  intro stored t _ hgenuine
  cases stored with
  | none => trivial
  | some stored =>
    apply keeps_bind (keeps_reconcileStored (hgenuine stored rfl))
    intros
    trivial

theorem keeps_cancel {runId : String} : Keeps (cancel runId) (fun _ _ => True) w := by
  apply keeps_bind keeps_get
  intro stored t _ hgenuine
  cases stored with
  | none => trivial
  | some stored =>
    simp only
    split
    · trivial
    · apply keeps_bind keeps_stopCaptureDelete
      intro _ u hu hended
      apply keeps_bind
      · exact keeps_finishAs (by simp) ((hgenuine stored rfl).known.mono hu) hended
      · intros
        trivial

variable {sha256 : String → String} {pipelineId : String}

theorem keeps_start {projection : Projection} {idempotencyKey : String}
    {replayOf : Option String} :
    Keeps (start sha256 pipelineId projection idempotencyKey replayOf) (fun _ _ => True) w := by
  unfold start
  split
  · trivial
  · apply keeps_clock
    intro now t _
    apply keeps_bind (keeps_claim rfl rfl)
    rintro ⟨stored, claimed⟩ u _ ⟨hgenuine, hown⟩
    cases claimed with
    | false =>
      simp only [Bool.not_false, if_true]
      split <;> trivial
    | true =>
      have hexecution := hown rfl
      apply keeps_bind
      · apply keeps_launch hgenuine
        rw [hexecution]
        rfl
      · intros
        trivial

theorem keeps_replay {projection : Projection} {runId idempotencyKey : String} :
    Keeps (replay sha256 pipelineId projection runId idempotencyKey) (fun _ _ => True) w := by
  apply keeps_bind keeps_get
  intro previous t _ _
  cases previous with
  | none => trivial
  | some previous =>
    simp only
    split
    · trivial
    · exact keeps_start

theorem keeps_perform (call : Call) :
    Keeps (perform sha256 pipelineId call) (fun _ _ => True) w := by
  obtain ⟨projection, work⟩ := call
  cases work with
  | start idempotencyKey replayOf => exact keeps_bind keeps_start (fun _ _ _ _ => trivial)
  | reconcile runId => exact keeps_reconcile
  | cancel runId => exact keeps_bind keeps_cancel (fun _ _ _ _ => trivial)
  | replay runId idempotencyKey => exact keeps_bind keeps_replay (fun _ _ _ _ => trivial)

end Programs

section Runs

abbrev OciConfig := Config Request Answer OciError (Option OciExecution) Call World

abbrev OciEvent := Event Request Answer OciError (Option OciExecution) Call

/-- Any call may be issued at any time. -/
def Unguarded (_ : OciConfig) (_ : OciEvent) : Prop := True

variable {sha256 : String → String} {pipelineId : String} {events : List OciEvent}
  {cfg : OciConfig}

/-- In every interleaving, with any crashes and failures, whose creations and finishes find the
active record that they are about, no released run has a live instance, and no two instances
are alive together. -/
theorem instances_attributed
    (run : Run attributedServices (perform sha256 pipelineId) Unguarded (.start .empty) events cfg) :
    NoOrphans cfg.state ∧ OneAlive cfg.state := by
  have hstart : Attached World.empty :=
    ⟨by simp [World.empty], by simp [World.empty], by simp [World.empty]⟩
  have hstable : ∀ {α : Type} (_ : Call), Stable attachment (fun (_ : α) (_ : World) => True) := by
    intro α _ a s t _ _
    trivial
  have hsafe := run.poolSafe (D := attachment) (fun c => hstable c) (fun c => hstable c)
    (fun cfg i call _ _ => keeps_perform call) (PoolSafe.start hstart)
  exact ⟨hsafe.1.1.noOrphans, hsafe.1.1.oneAlive⟩

instance (o : Request) (w : World) : Decidable (Attributed o w) :=
  match o with
  | .create execution => inferInstanceAs (Decidable
      ((∃ i ∈ w.instances, i.runId = execution.runId ∧ i.attempt = execution.attempt) ∨
        ∃ version ∈ current w.objects .active, version.value.terminal = false ∧
          version.value.runId = execution.runId ∧ version.value.attempt = execution.attempt))
  | .putObject .active execution (some etag) => inferInstanceAs (Decidable
      (execution.terminal = true → ∀ version ∈ current w.objects .active, version.etag = etag →
        version.value.attempt = execution.attempt ∧
          version.value.instanceId = execution.instanceId ∧
          (execution.instanceId = none → ∀ i ∈ w.instances,
            i.runId = execution.runId → i.attempt ≠ execution.attempt)))
  | .putObject .active _ none => isTrue trivial
  | .putObject (.history _) _ _ => isTrue trivial
  | .getObject _ => isTrue trivial
  | .deleteObject .. => isTrue trivial
  | .putLogs .. => isTrue trivial
  | .status _ => isTrue trivial
  | .stop _ => isTrue trivial
  | .delete _ => isTrue trivial
  | .logs _ => isTrue trivial
  | .clock => isTrue trivial

/-- The digests of the texts that two idempotency keys of one pipeline hash. -/
def exampleDigest (text : String) : String :=
  if text = "jobs\x00manual:one" then
    "41dadc9b828adbcf0f60f51ff5c4d3a626c11303fba803dca8cacb2fe9a3d45f"
  else "d76204781c1f8b06f9c7f17f456eebc048871865bf4a1a82b9bf88b839b093b3"

def exampleProjection : Projection where
  image := "ocir.us-ashburn-1.oci.oraclecloud.com/unit/dander/runtime@sha256:" ++
    "aaaaaaaaaaaaaaaaaaaaaaaaaaaaaaaaaaaaaaaaaaaaaaaaaaaaaaaaaaaaaaaa"
  deadlineSeconds := 900
  launcherRetryCount := 1
  deadline_bounds := by decide
  retry_bound := by decide

/-- A provider that numbers its instances, and reports that a container runs when it is first
observed and has succeeded after that. -/
def exampleOracle (w : World) : Oracle where
  clock := 0
  instanceId := "ocid1.computecontainerinstance." ++ toString w.instances.length
  status :=
    if (current w.objects .active).any (fun version => version.value.containerId.isSome) then
      ⟨.succeeded, some "container", some 0, none⟩
    else ⟨.running, some "container", none, none⟩
  logs := []
  ended := []

def exampleStart (idempotencyKey : String) : Call := ⟨exampleProjection, .start idempotencyKey none⟩

def exampleRunId : String := executionRunId exampleDigest "jobs" "manual:one"

def exampleReconcile : Call := ⟨exampleProjection, .reconcile (some exampleRunId)⟩

def exampleCancel : Call := ⟨exampleProjection, .cancel exampleRunId⟩

/-- Two instances are alive, the first of them of a released run. -/
def TwoAlive (w : World) : Prop :=
  ∃ i ∈ w.instances, ∃ j ∈ w.instances, i ≠ j ∧ i.instanceId ∉ w.ended ∧ j.instanceId ∉ w.ended ∧
    ∀ version ∈ current w.objects .active, version.value.runId ≠ i.runId

instance : DecidablePred TwoAlive := fun w =>
  inferInstanceAs (Decidable (∃ i ∈ w.instances, ∃ j ∈ w.instances, i ≠ j ∧
    i.instanceId ∉ w.ended ∧ j.instanceId ∉ w.ended ∧
    ∀ version ∈ current w.objects .active, version.value.runId ≠ i.runId))

/-- A cancellation between the claim of a run and the creation of its instance releases the lock;
the instance is created all the same, and the next run starts beside it. -/
theorem cancelled_launch_is_orphaned :
    (¬ ∀ events cfg, Run services (perform exampleDigest "jobs") Unguarded (.start .empty)
      events cfg → NoOrphans cfg.state) ∧
    ¬ ∀ events cfg, Run services (perform exampleDigest "jobs") Unguarded (.start .empty)
      events cfg → OneAlive cfg.state := by
  have hplay : (play (fun o w => some (serve (exampleOracle w) o w)) (perform exampleDigest "jobs")
      (fun _ _ => true) (.start .empty)
      [.issue 0 (exampleStart "manual:one"), .exec 0, .exec 0, .exec 0,
        .issue 1 exampleCancel, .exec 1, .exec 1, .exec 1, .exec 1, .exec 1, .exec 1, .finish 1,
        .exec 0, .issue 2 (exampleStart "manual:two"), .exec 2, .exec 2, .exec 2, .exec 2]).any
      (fun last => decide (TwoAlive last.state)) = true := by decide +kernel
  obtain ⟨events, cfg, hrun, i, hi, j, hj, hne, hli, hlj, hreleased⟩ : ∃ events cfg,
      Run services (perform exampleDigest "jobs") Unguarded (.start .empty) events cfg ∧
        TwoAlive cfg.state :=
    play_reaches (m := services) (P := TwoAlive)
      (fun _ w _ _ h => .inl ⟨exampleOracle w, Option.some.inj h⟩) (fun _ _ _ => trivial) hplay
  constructor
  · intro hall
    exact hli (hall events cfg hrun i hi hreleased)
  · intro hall
    exact hne (hall events cfg hrun i hi j hj hli hlj)

/-- One run that is started, observed and finished, and a second one after it. -/
theorem instances_attributed_two_runs :
    ∃ events cfg, Run attributedServices (perform exampleDigest "jobs") Unguarded (.start .empty)
        events cfg ∧
      cfg.state.instances.length = 2 ∧ NoOrphans cfg.state ∧ OneAlive cfg.state := by
  have hplay : (play
      (fun o w => if Attributed o w then some (serve (exampleOracle w) o w) else none)
      (perform exampleDigest "jobs") (fun _ _ => true) (.start .empty)
      [.issue 0 (exampleStart "manual:one"), .exec 0, .exec 0, .exec 0, .exec 0, .exec 0, .exec 0,
        .finish 0, .issue 1 exampleReconcile, .exec 1, .exec 1, .exec 1, .exec 1, .exec 1, .exec 1,
        .finish 1, .issue 2 exampleReconcile, .exec 2, .exec 2, .exec 2, .exec 2, .exec 2, .exec 2,
        .exec 2, .exec 2, .exec 2, .exec 2, .exec 2, .finish 2,
        .issue 3 (exampleStart "manual:two"), .exec 3, .exec 3, .exec 3, .exec 3, .exec 3,
        .exec 3, .finish 3]).any
      (fun last => decide (last.state.instances.length = 2)) = true := by decide +kernel
  have hserve : ∀ o w answer w',
      (if Attributed o w then some (serve (exampleOracle w) o w) else none) = some (answer, w') →
      attributedServices.step o w answer w' := by
    intro o w answer w' h
    split at h
    next hattributed => exact ⟨hattributed, .inl ⟨exampleOracle w, Option.some.inj h⟩⟩
    · cases h
  obtain ⟨events, cfg, hrun, hlength⟩ : ∃ events cfg,
      Run attributedServices (perform exampleDigest "jobs") Unguarded (.start .empty) events cfg ∧
        cfg.state.instances.length = 2 :=
    play_reaches (P := fun w => w.instances.length = 2) hserve (fun _ _ _ => trivial) hplay
  exact ⟨events, cfg, hrun, hlength, instances_attributed hrun⟩

end Runs

end Dander.Oci
