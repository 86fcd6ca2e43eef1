import Dander.OciInstances

/-!
# The records of OCI runs

A run has at most one chain of attempts, and its history record agrees with the active object
until the lock is released, as long as the lock is not claimed for a run that has ended and a
terminal record is not replaced by a different one.
-/
namespace Dander.Oci

open Interleaving ObjectStore

section Property

/-- The idempotency keys the lock was claimed with: one for each chain of attempts. -/
def chainKeys : History Key OciExecution → List String
  | [] => []
  | write :: older =>
    match write.name, write.value, current older .active with
    | .active, some execution, none => execution.idempotencyKey :: chainKeys older
    | _, _, _ => chainKeys older

/-- The lock is only claimed for a run that has no history record then, and a terminal record in
the active object is only replaced by an equal one. -/
def Undisputed : Request → World → Prop
  | .putObject .active execution none, w =>
    current w.objects .active = none → current w.objects (.history execution.runId) = none
  | .putObject .active execution (some etag), w =>
    execution.terminal = true → ∀ version ∈ current w.objects .active, version.etag = etag →
      version.value.terminal = true → version.value = execution
  | _, _ => True

end Property

section Objects

variable {objects : History Key OciExecution} {value : Option OciExecution} {author : ℕ}
  {runId : String}

@[simp] theorem current_active_cons : current (⟨.active, value, author⟩ :: objects) .active =
    value.map (fun execution => ⟨objects.length, execution⟩) := by
  simp [current]

@[simp] theorem current_history_of_active :
    current (⟨.active, value, author⟩ :: objects) (.history runId) =
      current objects (.history runId) := by
  simp [current]

@[simp] theorem current_active_of_history :
    current (⟨.history runId, value, author⟩ :: objects) .active = current objects .active := by
  simp [current]

@[simp] theorem current_history_cons :
    current (⟨.history runId, value, author⟩ :: objects) (.history runId) =
      value.map (fun execution => ⟨objects.length, execution⟩) := by
  simp [current]

theorem current_history_of_ne {other : String} (hne : runId ≠ other) :
    current (⟨.history runId, value, author⟩ :: objects) (.history other) =
      current objects (.history other) := by
  simp [current, hne]

/-- Claiming the lock starts a chain; no other write does. -/
theorem chainKeys_claim {execution : OciExecution} (h : current objects .active = none) :
    chainKeys (⟨.active, some execution, author⟩ :: objects) =
      execution.idempotencyKey :: chainKeys objects := by
  simp [chainKeys, h]

theorem chainKeys_replace {version : Version OciExecution}
    (h : current objects .active = some version) :
    chainKeys (⟨.active, value, author⟩ :: objects) = chainKeys objects := by
  cases value <;> simp [chainKeys, h]

theorem chainKeys_history :
    chainKeys (⟨.history runId, value, author⟩ :: objects) = chainKeys objects := by
  simp [chainKeys]

end Objects

section Invariant

variable (sha256 : String → String) (pipelineId : String)

/-- The run identity is the one its idempotency key gives. -/
structure Identified (execution : OciExecution) : Prop where
  runId : execution.runId = executionRunId sha256 pipelineId execution.idempotencyKey
  key : isIdempotencyKey execution.idempotencyKey = true

structure Ordered (objects : History Key OciExecution) : Prop where
  writes : ∀ write ∈ objects, ∀ execution ∈ write.value, Identified sha256 pipelineId execution
  ended : ∀ runId record, current objects (.history runId) = some record →
    record.value.terminal = true ∧ record.value.runId = runId
  agree : ∀ active record, current objects .active = some active →
    current objects (.history active.value.runId) = some record → active.value = record.value
  chains : (chainKeys objects).Nodup
  owned : ∀ key ∈ chainKeys objects,
    (∃ record, current objects (.history (executionRunId sha256 pipelineId key)) = some record) ∨
      ∃ active, current objects .active = some active ∧
        active.value.runId = executionRunId sha256 pipelineId key

/-- The terminal record is in the history, or it is still the active one. -/
def Settled (objects : History Key OciExecution) (execution : OciExecution) : Prop :=
  match current objects (.history execution.runId) with
  | some record => record.value = execution
  | none => ∃ active, current objects .active = some active ∧ active.value = execution

/-- What later states keep: history records, and what a finisher has settled. -/
structure Advances (objects later : History Key OciExecution) : Prop where
  writes : objects <:+ later
  records : ∀ runId record, current objects (.history runId) = some record →
    current later (.history runId) = some record
  settled : ∀ execution, execution.terminal = true → Settled objects execution →
    Settled later execution

theorem Advances.rfl' (objects : History Key OciExecution) : Advances objects objects :=
  ⟨List.suffix_refl _, fun _ _ h => h, fun _ _ h => h⟩

theorem Advances.trans {a b c : History Key OciExecution} (hab : Advances a b)
    (hbc : Advances b c) : Advances a c :=
  ⟨hab.writes.trans hbc.writes, fun runId record h => hbc.records runId record
      (hab.records runId record h), fun execution hterminal h => hbc.settled execution hterminal
      (hab.settled execution hterminal h)⟩

def ordering : Discipline World where
  inv w := Ordered sha256 pipelineId w.objects
  le w later := Advances w.objects later.objects
  refl w := Advances.rfl' w.objects
  trans _ _ _ := Advances.trans

variable {sha256 pipelineId} {objects : History Key OciExecution} {execution : OciExecution}

theorem Settled.of_record {record : Version OciExecution}
    (hcurrent : current objects (.history execution.runId) = some record)
    (h : record.value = execution) : Settled objects execution := by
  simp only [Settled, hcurrent]
  exact h

theorem Settled.value_eq (h : Settled objects execution) {record : Version OciExecution}
    (hcurrent : current objects (.history execution.runId) = some record) :
    record.value = execution := by
  simpa only [Settled, hcurrent] using h

theorem Settled.active (h : Settled objects execution)
    (hcurrent : current objects (.history execution.runId) = none) :
    ∃ active, current objects .active = some active ∧ active.value = execution := by
  simpa only [Settled, hcurrent] using h

/-- Writes to the active object that keep what is settled keep the rest. -/
theorem advances_of_active {value : Option OciExecution} {author : ℕ}
    (hsettled : ∀ e active, e.terminal = true → current objects (.history e.runId) = none →
      current objects .active = some active → active.value = e → value = some e) :
    Advances objects (⟨.active, value, author⟩ :: objects) := by
  refine ⟨List.suffix_cons _ _, ?_, ?_⟩
  · intro runId record hcurrent
    rw [current_history_of_active]
    exact hcurrent
  · intro e hterminal h
    unfold Settled
    rw [current_history_of_active]
    cases hrecord : current objects (.history e.runId) with
    | some record => exact h.value_eq hrecord
    | none =>
      obtain ⟨active, hactive, hvalue⟩ := h.active hrecord
      rw [hsettled e active hterminal hrecord hactive hvalue]
      exact ⟨⟨objects.length, e⟩, by simp, rfl⟩

/-- Claiming the lock for a run without a history record. -/
theorem Ordered.claim (hinv : Ordered sha256 pipelineId objects)
    (hidentified : Identified sha256 pipelineId execution)
    (hfree : current objects .active = none)
    (hnew : current objects (.history execution.runId) = none) :
    Ordered sha256 pipelineId (⟨.active, some execution, 0⟩ :: objects) ∧
      Advances objects (⟨.active, some execution, 0⟩ :: objects) := by
  refine ⟨⟨?_, ?_, ?_, ?_, ?_⟩, advances_of_active ?_⟩
  · intro write hmem e hvalue
    rcases List.mem_cons.mp hmem with rfl | hold
    · cases hvalue
      exact hidentified
    · exact hinv.writes write hold e hvalue
  · intro runId record hcurrent
    rw [current_history_of_active] at hcurrent
    exact hinv.ended runId record hcurrent
  · intro active record hactive hrecord
    simp only [current_active_cons, Option.map_some, Option.some.injEq] at hactive
    subst hactive
    rw [current_history_of_active, hnew] at hrecord
    cases hrecord
  · rw [chainKeys_claim hfree, List.nodup_cons]
    refine ⟨fun hmem => ?_, hinv.chains⟩
    rcases hinv.owned _ hmem with ⟨record, hrecord⟩ | ⟨active, hactive, -⟩
    · rw [← hidentified.runId, hnew] at hrecord
      cases hrecord
    · rw [hfree] at hactive
      cases hactive
  · intro key hmem
    rw [chainKeys_claim hfree] at hmem
    rcases List.mem_cons.mp hmem with rfl | hold
    · exact .inr ⟨⟨objects.length, execution⟩, by simp, hidentified.runId⟩
    · rcases hinv.owned key hold with ⟨record, hrecord⟩ | ⟨active, hactive, -⟩
      · exact .inl ⟨record, by simpa using hrecord⟩
      · rw [hfree] at hactive
        cases hactive
  · intro e active _ _ hactive
    rw [hfree] at hactive
    cases hactive

/-- Replacing the active record by one of the same run; a terminal record only by itself. -/
theorem Ordered.replace (hinv : Ordered sha256 pipelineId objects)
    (hidentified : Identified sha256 pipelineId execution) {version : Version OciExecution}
    (hactive : current objects .active = some version)
    (hrun : version.value.runId = execution.runId)
    (hterminal : version.value.terminal = true → version.value = execution) :
    Ordered sha256 pipelineId (⟨.active, some execution, 0⟩ :: objects) ∧
      Advances objects (⟨.active, some execution, 0⟩ :: objects) := by
  refine ⟨⟨?_, ?_, ?_, ?_, ?_⟩, advances_of_active ?_⟩
  · intro write hmem e hvalue
    rcases List.mem_cons.mp hmem with rfl | hold
    · cases hvalue
      exact hidentified
    · exact hinv.writes write hold e hvalue
  · intro runId record hcurrent
    rw [current_history_of_active] at hcurrent
    exact hinv.ended runId record hcurrent
  · intro active record hcurrent hrecord
    simp only [current_active_cons, Option.map_some, Option.some.injEq] at hcurrent
    subst hcurrent
    rw [current_history_of_active, ← hrun] at hrecord
    have hagree := hinv.agree version record hactive hrecord
    rw [← hagree]
    apply (hterminal _).symm
    rw [hagree]
    exact (hinv.ended _ record hrecord).1
  · rw [chainKeys_replace hactive]
    exact hinv.chains
  · intro key hmem
    rw [chainKeys_replace hactive] at hmem
    rcases hinv.owned key hmem with ⟨record, hrecord⟩ | ⟨active, hcurrent, hkey⟩
    · exact .inl ⟨record, by simpa using hrecord⟩
    · rw [hactive, Option.some.injEq] at hcurrent
      subst hcurrent
      exact .inr ⟨⟨objects.length, execution⟩, by simp, hrun.symm.trans hkey⟩
  · rintro e active he _ hcurrent rfl
    rw [hactive, Option.some.injEq] at hcurrent
    subst hcurrent
    rw [hterminal he]

/-- Writing the first history record of a run that is settled. -/
theorem Ordered.preserve (hinv : Ordered sha256 pipelineId objects)
    (hidentified : Identified sha256 pipelineId execution)
    (hterminal : execution.terminal = true) (hsettled : Settled objects execution)
    (hnew : current objects (.history execution.runId) = none) :
    Ordered sha256 pipelineId (⟨.history execution.runId, some execution, 0⟩ :: objects) ∧
      Advances objects (⟨.history execution.runId, some execution, 0⟩ :: objects) := by
  obtain ⟨active, hactive, hvalue⟩ := hsettled.active hnew
  have hrecords : ∀ runId record, current objects (.history runId) = some record →
      current (⟨.history execution.runId, some execution, 0⟩ :: objects) (.history runId) =
        some record := by
    intro runId record hrecord
    have hne : execution.runId ≠ runId := by
      rintro rfl
      rw [hnew] at hrecord
      cases hrecord
    rw [current_history_of_ne hne]
    exact hrecord
  refine ⟨⟨?_, ?_, ?_, ?_, ?_⟩, List.suffix_cons _ _, hrecords, ?_⟩
  · intro write hmem e he
    rcases List.mem_cons.mp hmem with rfl | hold
    · cases he
      exact hidentified
    · exact hinv.writes write hold e he
  · intro runId record hcurrent
    by_cases hrun : execution.runId = runId
    · subst hrun
      simp only [current_history_cons, Option.map_some, Option.some.injEq] at hcurrent
      subst hcurrent
      exact ⟨hterminal, rfl⟩
    · rw [current_history_of_ne hrun] at hcurrent
      exact hinv.ended runId record hcurrent
  · intro other record hcurrent hrecord
    rw [current_active_of_history, hactive, Option.some.injEq] at hcurrent
    subst hcurrent
    rw [hvalue, current_history_cons, Option.map_some, Option.some.injEq] at hrecord
    rw [hvalue, ← hrecord]
  · rw [chainKeys_history]
    exact hinv.chains
  · intro key hmem
    rw [chainKeys_history] at hmem
    rcases hinv.owned key hmem with ⟨record, hrecord⟩ | ⟨other, hother, hkey⟩
    · exact .inl ⟨record, hrecords _ record hrecord⟩
    · exact .inr ⟨other, by simpa using hother, hkey⟩
  · intro e he h
    by_cases hrun : execution.runId = e.runId
    · obtain ⟨other, hother, hsame⟩ := h.active (by rw [← hrun]; exact hnew)
      rw [hactive, Option.some.injEq] at hother
      subst hother
      obtain rfl : execution = e := hvalue.symm.trans hsame
      exact .of_record current_history_cons rfl
    · unfold Settled at h ⊢
      rw [current_history_of_ne hrun, current_active_of_history]
      exact h

/-- Releasing the lock of a run that has a history record. -/
theorem Ordered.release (hinv : Ordered sha256 pipelineId objects)
    {version record : Version OciExecution} (hactive : current objects .active = some version)
    (hrecord : current objects (.history version.value.runId) = some record) :
    Ordered sha256 pipelineId (⟨.active, none, 0⟩ :: objects) ∧
      Advances objects (⟨.active, none, 0⟩ :: objects) := by
  refine ⟨⟨?_, ?_, ?_, ?_, ?_⟩, advances_of_active ?_⟩
  · intro write hmem e hvalue
    rcases List.mem_cons.mp hmem with rfl | hold
    · cases hvalue
    · exact hinv.writes write hold e hvalue
  · intro runId other hcurrent
    rw [current_history_of_active] at hcurrent
    exact hinv.ended runId other hcurrent
  · intro active other hcurrent
    simp at hcurrent
  · rw [chainKeys_replace hactive]
    exact hinv.chains
  · intro key hmem
    rw [chainKeys_replace hactive] at hmem
    rcases hinv.owned key hmem with ⟨other, hother⟩ | ⟨active, hcurrent, hkey⟩
    · exact .inl ⟨other, by simpa using hother⟩
    · rw [hactive, Option.some.injEq] at hcurrent
      subst hcurrent
      exact .inl ⟨record, by rw [← hkey]; simpa using hrecord⟩
  · rintro e active _ hnone hcurrent rfl
    rw [hactive, Option.some.injEq] at hcurrent
    subst hcurrent
    rw [hnone] at hrecord
    cases hrecord

end Invariant

section Steps

/-- What a worker has to know of the objects when it makes a request. -/
def Entitled (sha256 : String → String) (pipelineId : String) :
    Request → History Key OciExecution → Prop
  | .putObject .active execution none, _ => Identified sha256 pipelineId execution
  | .putObject .active execution (some etag), objects =>
    Identified sha256 pipelineId execution ∧
      ∀ version ∈ current objects .active, version.etag = etag →
        version.value.runId = execution.runId ∧
          (version.value.terminal = true → execution.terminal = true)
  | .putObject (.history runId) execution ifMatch, objects =>
    runId = execution.runId ∧ ifMatch = none ∧ Identified sha256 pipelineId execution ∧
      execution.terminal = true ∧ Settled objects execution
  | .deleteObject .active etag, objects =>
    ∀ version ∈ current objects .active, version.etag = etag →
      ∃ record, current objects (.history version.value.runId) = some record
  | .deleteObject (.history _) _, _ => False
  | _, _ => True

/-- Requests that write no record. -/
def Aside : Request → Prop
  | .putObject .. => False
  | .deleteObject .. => False
  | _ => True

variable {sha256 : String → String} {pipelineId : String} {w : World}

theorem serve_aside {o : Request} (haside : Aside o) (oracle : Oracle) :
    (serve oracle o w).2.objects = w.objects := by
  cases o with
  | putObject key execution ifMatch => exact haside.elim
  | deleteObject key ifMatch => exact haside.elim
  | create execution =>
    simp only [serve, World.respond, World.create]
    split
    · rfl
    · split <;> rfl
  | _ => rfl

theorem putObject_ordered (hinv : Ordered sha256 pipelineId w.objects) {key : Key}
    {execution : OciExecution} {ifMatch : Option ℕ}
    (hundisputed : Undisputed (.putObject key execution ifMatch) w)
    (hentitled : Entitled sha256 pipelineId (.putObject key execution ifMatch) w.objects) :
    Ordered sha256 pipelineId (w.putObject key execution ifMatch).2.objects ∧
      Advances w.objects (w.putObject key execution ifMatch).2.objects := by
  unfold World.putObject
  split
  next htag =>
    cases key with
    | history runId =>
      obtain ⟨rfl, rfl, hidentified, hterminal, hsettled⟩ := hentitled
      exact hinv.preserve hidentified hterminal hsettled (tag_eq_none.mp htag)
    | active =>
      cases ifMatch with
      | none =>
        have hfree := tag_eq_none.mp htag
        exact hinv.claim hentitled hfree (hundisputed hfree)
      | some etag =>
        obtain ⟨value, hcurrent⟩ := tag_eq_some.mp htag
        obtain ⟨hrun, hkept⟩ := hentitled.2 _ hcurrent rfl
        apply hinv.replace hentitled.1 hcurrent hrun
        intro hterminal
        exact hundisputed (hkept hterminal) _ hcurrent rfl hterminal
  · exact ⟨hinv, Advances.rfl' _⟩

theorem deleteObject_ordered (hinv : Ordered sha256 pipelineId w.objects) {key : Key}
    {ifMatch : ℕ} (hentitled : Entitled sha256 pipelineId (.deleteObject key ifMatch) w.objects) :
    Ordered sha256 pipelineId (w.deleteObject key ifMatch).2.objects ∧
      Advances w.objects (w.deleteObject key ifMatch).2.objects := by
  unfold World.deleteObject
  split
  · exact ⟨hinv, Advances.rfl' _⟩
  next etag htag =>
    split
    next heq =>
      subst heq
      cases key with
      | history runId => exact hentitled.elim
      | active =>
        obtain ⟨value, hcurrent⟩ := tag_eq_some.mp htag
        obtain ⟨record, hrecord⟩ := hentitled _ hcurrent rfl
        exact hinv.release hcurrent hrecord
    · exact ⟨hinv, Advances.rfl' _⟩

/-- Every request a worker may make keeps the records ordered. -/
theorem serve_ordered (hinv : Ordered sha256 pipelineId w.objects) (oracle : Oracle)
    {o : Request} (hundisputed : Undisputed o w)
    (hentitled : Entitled sha256 pipelineId o w.objects) :
    Ordered sha256 pipelineId (serve oracle o w).2.objects ∧
      Advances w.objects (serve oracle o w).2.objects := by
  have haside : Aside o → Ordered sha256 pipelineId (serve oracle o w).2.objects ∧
      Advances w.objects (serve oracle o w).2.objects := by
    intro haside
    rw [serve_aside haside]
    exact ⟨hinv, Advances.rfl' _⟩
  cases o with
  | putObject key execution ifMatch =>
    have hsettled : Undisputed (.putObject key execution ifMatch) (w.settle oracle.ended) := by
      cases key <;> cases ifMatch <;> exact hundisputed
    exact putObject_ordered (w := w.settle oracle.ended) hinv hsettled hentitled
  | deleteObject key ifMatch =>
    exact deleteObject_ordered (w := w.settle oracle.ended) hinv hentitled
  | _ => exact haside trivial

end Steps

section Programs

variable {sha256 : String → String} {pipelineId : String}
  {cond : Request → World → Prop} {α β : Type} {w : World}
  {Q : α → World → Prop} {R : β → World → Prop} {E : OciError → World → Prop}

/-- Safety of a controller program while its requests meet a condition. -/
def Conforms (sha256 : String → String) (pipelineId : String) (cond : Request → World → Prop)
    (E : OciError → World → Prop) (p : Action α) (Q : α → World → Prop) (w : World) : Prop :=
  Safe (services.restrict cond) (ordering sha256 pipelineId) Q E p w

/-- One request: what must be known of it, and how the worker goes on. -/
theorem conforms_request (hcond : ∀ o w, cond o w → Undisputed o w) {o : Request}
    {next : Answer o → Action α}
    (hentitled : ∀ t : World, Advances w.objects t.objects →
      Ordered sha256 pipelineId t.objects → cond o t → Entitled sha256 pipelineId o t.objects)
    (hfailed : ∀ answer t, Advances w.objects t.objects → Failed o answer →
      Conforms sha256 pipelineId cond E (next answer) Q t)
    (hserved : ∀ t oracle, Advances w.objects t.objects → Ordered sha256 pipelineId t.objects →
      cond o t → Ordered sha256 pipelineId (serve oracle o t).2.objects →
      Advances t.objects (serve oracle o t).2.objects →
      Conforms sha256 pipelineId cond E (next (serve oracle o t).1) Q (serve oracle o t).2) :
    Conforms sha256 pipelineId cond E (.call o next) Q w := by
  apply Safe.request
  · intro t oracle ht hinv hc
    exact serve_ordered hinv oracle (hcond o t hc) (hentitled t ht hinv hc)
  · intro answer t ht _ hfail
    exact hfailed answer t ht hfail
  · intro t oracle ht hinv hc hinv' hle
    exact hserved t oracle ht hinv hc hinv' hle

theorem conforms_bind {p : Action α} {f : α → Action β}
    (hp : Conforms sha256 pipelineId cond E p Q w)
    (hf : ∀ a t, Advances w.objects t.objects → Q a t →
      Conforms sha256 pipelineId cond E (f a) R t) :
    Conforms sha256 pipelineId cond E (p >>= f) R w :=
  Safe.bind hp hf

/-- Programs that write no record. -/
theorem conforms_aside {p : Action α}
    (hp : p.Only Aside) :
    Conforms sha256 pipelineId cond (fun _ _ => True) p (fun _ _ => True) w := by
  have hserve : ∀ o t oracle, Aside o → Ordered sha256 pipelineId t.objects →
      Ordered sha256 pipelineId (serve oracle o t).2.objects ∧
        Advances t.objects (serve oracle o t).2.objects := by
    intro o t oracle haside hinv
    rw [serve_aside haside]
    exact ⟨hinv, Advances.rfl' _⟩
  refine Safe.of_only ?_ hp w
  rintro o t r t' haside hinv ⟨-, ⟨oracle, heq⟩ | ⟨-, rfl | ⟨oracle, rfl⟩⟩⟩
  · have h := hserve o t oracle haside hinv
    rw [heq] at h
    exact h
  · exact ⟨hinv, Advances.rfl' _⟩
  · exact hserve o t oracle haside hinv

/-- A read: what the object holds at that moment. -/
theorem conforms_read (hcond : ∀ o w, cond o w → Undisputed o w) {key : Key}
    {Q : Option StoredExecution → World → Prop}
    (hraise : ∀ t, E (.lifecycle "Could not read OCI execution record") t)
    (hnone : ∀ t u : World, Advances w.objects t.objects → Ordered sha256 pipelineId t.objects →
      cond (.getObject key) t → u.objects = t.objects → current t.objects key = none → Q none u)
    (hsome : ∀ (t u : World) version, Advances w.objects t.objects →
      Ordered sha256 pipelineId t.objects → cond (.getObject key) t → u.objects = t.objects →
      current t.objects key = some version → Q (some ⟨version.value, version.etag⟩) u) :
    Conforms sha256 pipelineId cond E (read key) Q w := by
  apply conforms_request hcond
  · intros
    trivial
  · rintro answer t _ rfl
    exact hraise t
  · intro t oracle ht hinv hc _ _
    have hanswer : (serve oracle (.getObject key) t).1 = t.getObject key := rfl
    have hobjects : (serve oracle (.getObject key) t).2.objects = t.objects := rfl
    rw [hanswer]
    unfold World.getObject
    cases hcurrent : current t.objects key with
    | none => exact hnone t _ ht hinv hc hobjects hcurrent
    | some version => exact hsome t _ version ht hinv hc hobjects hcurrent

/-- A conditional put: what holds of the objects when it is applied, and when it is refused. -/
theorem conforms_put (hcond : ∀ o w, cond o w → Undisputed o w) {key : Key}
    {execution : OciExecution} {ifMatch : Option ℕ} {next : Except ServiceError ℕ → Action α}
    (hentitled : ∀ t : World, Advances w.objects t.objects →
      Ordered sha256 pipelineId t.objects → cond (.putObject key execution ifMatch) t →
      Entitled sha256 pipelineId (.putObject key execution ifMatch) t.objects)
    (hfailed : ∀ t : World, Advances w.objects t.objects →
      Conforms sha256 pipelineId cond E (next (.error .other)) Q t)
    (hrefused : ∀ t u : World, Advances w.objects t.objects →
      Ordered sha256 pipelineId t.objects → cond (.putObject key execution ifMatch) t →
      u.objects = t.objects → tag t.objects key ≠ ifMatch →
      Conforms sha256 pipelineId cond E (next (.error .preconditionFailed)) Q u)
    (hput : ∀ t u : World, Advances w.objects u.objects →
      Ordered sha256 pipelineId u.objects → tag t.objects key = ifMatch → u.objects = ⟨key, some execution, 0⟩ :: t.objects →
      Conforms sha256 pipelineId cond E (next (.ok t.objects.length)) Q u) :
    Conforms sha256 pipelineId cond E (.call (.putObject key execution ifMatch) next) Q w := by
  apply conforms_request hcond hentitled
  · rintro answer t ht rfl
    exact hfailed t ht
  · intro t oracle ht hinv hc hinv' hle
    have hserve : serve oracle (.putObject key execution ifMatch) t =
      (t.settle oracle.ended).putObject key execution ifMatch := rfl
    have hobjects : (t.settle oracle.ended).objects = t.objects := rfl
    rw [hserve] at hinv' hle ⊢
    unfold World.putObject at hinv' hle ⊢
    rw [hobjects] at hinv' hle ⊢
    by_cases htag : tag t.objects key = ifMatch
    · rw [if_pos htag] at hinv' hle ⊢
      exact hput t _ (ht.trans hle) hinv' htag rfl
    · rw [if_neg htag] at hinv' hle ⊢
      exact hrefused t _ ht hinv hc hobjects htag

/-- A record under the tag the store gave it, of the run its key identifies. -/
structure Sourced (sha256 : String → String) (pipelineId : String) (w : World)
    (stored : StoredExecution) : Prop where
  recorded : Recorded w stored
  identified : Identified sha256 pipelineId stored.execution

theorem Sourced.mono {stored : StoredExecution} {later : World}
    (h : Sourced sha256 pipelineId w stored) (hle : Advances w.objects later.objects) :
    Sourced sha256 pipelineId later stored :=
  ⟨h.recorded.mono hle.writes, h.identified⟩

theorem sourced_of_current (hinv : Ordered sha256 pipelineId w.objects) {key : Key}
    {version : Version OciExecution} (h : current w.objects key = some version) {later : World}
    (hobjects : later.objects = w.objects) :
    Sourced sha256 pipelineId later ⟨version.value, version.etag⟩ := by
  obtain ⟨author, hrecorded⟩ := recorded_of_current h
  refine ⟨⟨key, author, by rw [hobjects]; exact hrecorded⟩, ?_⟩
  exact hinv.writes _ (mem_of_recorded hrecorded) _ rfl

/-- The errors by which a call reports that the object store failed. -/
def Reported : OciError → Prop
  | .service .other => True
  | .lifecycle message => message ∈ ["Could not read OCI execution record",
      "Could not preserve OCI terminal execution", "Could not release OCI pipeline execution"]
  | _ => False

theorem conforms_readSourced (hcond : ∀ o w, cond o w → Undisputed o w)
    (hE : ∀ e t, Reported e → E e t) {key : Key} :
    Conforms sha256 pipelineId cond E (read key)
      (fun stored t => ∀ version ∈ stored, Sourced sha256 pipelineId t version) w := by
  apply conforms_read hcond
  · intro t
    exact hE _ t (by simp [Reported])
  · rintro t u _ _ _ _ _ version ⟨⟩
  · rintro t u version _ hinv _ hobjects hcurrent _ ⟨⟩
    exact sourced_of_current hinv hcurrent hobjects

/-- Saving at a recorded tag; the record is settled by it. -/
theorem conforms_save (hcond : ∀ o w, cond o w → Undisputed o w)
    (hE : ∀ e t, Reported e → E e t) {stored : StoredExecution} {execution : OciExecution}
    (hsourced : Sourced sha256 pipelineId w stored)
    (hidentified : Identified sha256 pipelineId execution)
    (hpipeline : stored.execution.pipelineId = execution.pipelineId)
    (hrun : stored.execution.runId = execution.runId)
    (hkept : stored.execution.terminal = true → execution.terminal = true)
    (hrefused : ∀ t u, cond (.putObject .active execution (some stored.version)) t →
      tag t.objects .active ≠ some stored.version → E (.service .preconditionFailed) u) :
    Conforms sha256 pipelineId cond E (save stored execution) (fun saved t =>
      Sourced sha256 pipelineId t saved ∧ saved.execution = execution ∧
        Settled t.objects execution) w := by
  unfold save requireSameRun
  rw [if_pos ⟨hpipeline, hrun⟩, Prog.ret_bind]
  apply conforms_put hcond
  · intro t ht _ _
    refine ⟨hidentified, fun version hcurrent hetag => ?_⟩
    rw [(hsourced.mono ht).recorded.value_eq hcurrent hetag]
    exact ⟨hrun, hkept⟩
  · intro t _
    exact hE _ t trivial
  · intro t u _ _ hc _ htag
    exact hrefused t u hc htag
  · intro t u _ hinv _ hobjects
    have hactive : current u.objects .active = some ⟨t.objects.length, execution⟩ := by
      rw [hobjects]
      simp
    refine ⟨⟨recorded_of_version hactive, hidentified⟩, rfl, ?_⟩
    cases hrecord : current u.objects (.history execution.runId) with
    | some record => exact .of_record hrecord (hinv.agree _ record hactive hrecord).symm
    | none =>
      simp only [Settled, hrecord]
      exact ⟨_, hactive, rfl⟩

/-- A settled record ends up in the history. -/
theorem conforms_preserve (hcond : ∀ o w, cond o w → Undisputed o w)
    (hE : ∀ e t, Reported e → E e t) {execution : OciExecution}
    (hidentified : Identified sha256 pipelineId execution)
    (hterminal : execution.terminal = true) (hsettled : Settled w.objects execution) :
    Conforms sha256 pipelineId cond E (preserve execution) (fun _ t =>
      ∃ record, current t.objects (.history execution.runId) = some record) w := by
  apply conforms_put hcond
  · intro t ht _ _
    exact ⟨rfl, rfl, hidentified, hterminal, ht.settled execution hterminal hsettled⟩
  · intro t _
    exact hE _ t (by simp [Reported])
  · intro t u ht hinv _ hobjects htag
    obtain ⟨record, hrecord⟩ := Option.ne_none_iff_exists'.mp (mt tag_eq_none.mpr htag)
    have hrecord' : current u.objects (.history execution.runId) = some record := by
      rw [hobjects]
      exact hrecord
    have hsettled' := ht.settled execution hterminal hsettled
    have hexisting : Conforms sha256 pipelineId cond E (read (.history execution.runId))
        (fun existing t => ∃ version, existing = some ⟨execution, version⟩ ∧
          ∃ record, current t.objects (.history execution.runId) = some record) u := by
      apply conforms_read hcond
      · intro v
        exact hE _ v (by simp [Reported])
      · intro v _ hv _ _ _ hnone
        rw [hv.records _ record hrecord'] at hnone
        cases hnone
      · intro v x version hv _ _ hx hcurrent
        rw [hv.records _ record hrecord', Option.some.injEq] at hcurrent
        subst hcurrent
        refine ⟨record.etag, ?_, record, ?_⟩
        · rw [hsettled'.value_eq hrecord]
        · rw [hx]
          exact hv.records _ record hrecord'
    apply conforms_bind hexisting
    rintro existing v _ ⟨version, rfl, hcurrent⟩
    simp only [if_true]
    exact hcurrent
  · intro t u _ _ _ hobjects
    exact ⟨⟨t.objects.length, execution⟩, by rw [hobjects]; simp⟩

/-- Releasing the lock of a run that is preserved. -/
theorem conforms_release (hcond : ∀ o w, cond o w → Undisputed o w)
    (hE : ∀ e t, Reported e → E e t) {stored : StoredExecution} {record : Version OciExecution}
    (hsourced : Sourced sha256 pipelineId w stored)
    (hrecord : current w.objects (.history stored.execution.runId) = some record) :
    Conforms sha256 pipelineId cond E (release stored.version) (fun _ _ => True) w := by
  have hraise : ∀ t, E (.lifecycle "Could not release OCI pipeline execution") t :=
    fun t => hE _ t (by simp [Reported])
  apply conforms_request hcond
  · intro t ht _ _ version hcurrent hetag
    rw [(hsourced.mono ht).recorded.value_eq hcurrent hetag]
    exact ⟨record, ht.records _ record hrecord⟩
  · rintro answer t _ rfl
    exact hraise t
  · intro t oracle _ _ _ _ _
    generalize (serve oracle (.deleteObject .active stored.version) t).1 = answer
    rcases answer with e | ⟨⟩
    · cases e with
      | notFound => trivial
      | preconditionFailed => exact hraise _
      | other => exact hraise _
    · trivial

/-- Replacing the active record, preserving it and releasing the lock. -/
theorem conforms_settle (hcond : ∀ o w, cond o w → Undisputed o w)
    (hE : ∀ e t, Reported e → E e t) {active : StoredExecution} {execution : OciExecution}
    (hsourced : Sourced sha256 pipelineId w active)
    (hidentified : Identified sha256 pipelineId execution)
    (hterminal : execution.terminal = true)
    (hpipeline : active.execution.pipelineId = execution.pipelineId)
    (hrun : active.execution.runId = execution.runId)
    (hrefused : ∀ t u, cond (.putObject .active execution (some active.version)) t →
      tag t.objects .active ≠ some active.version → E (.service .preconditionFailed) u) :
    Conforms sha256 pipelineId cond E
      (save active execution >>= fun saved => preserve execution >>= fun version =>
        release saved.version >>= fun _ => .ret (StoredExecution.mk execution version))
      (fun finished _ => finished.execution = execution) w := by
  apply conforms_bind (conforms_save hcond hE hsourced hidentified hpipeline hrun
    (fun _ => hterminal) hrefused)
  rintro saved t _ ⟨hsaved, hexecution, hsettled⟩
  apply conforms_bind (conforms_preserve hcond hE hidentified hterminal hsettled)
  rintro version u hu ⟨record, hrecord⟩
  apply conforms_bind
  · apply conforms_release hcond hE (hsaved.mono hu)
    rw [hexecution]
    exact hrecord
  · intros
    rfl

end Programs

section Calls

variable {sha256 : String → String} {pipelineId : String} {α β : Type} {w : World}
  {Q : α → World → Prop} {R : β → World → Prop}

/-- Safety of a program while nothing is disputed; an error promises nothing. -/
abbrev Abides (sha256 : String → String) (pipelineId : String) (p : Action α)
    (Q : α → World → Prop) (w : World) : Prop :=
  Conforms sha256 pipelineId Undisputed (fun _ _ => True) p Q w

/-- A request that writes no record. -/
theorem abides_call {o : Request} {next : Answer o → Action α} (haside : Aside o)
    (hnext : ∀ answer t, Advances w.objects t.objects →
      Abides sha256 pipelineId (next answer) Q t) :
    Abides sha256 pipelineId (.call o next) Q w := by
  apply conforms_request (fun _ _ h => h)
  · intros
    cases o with
    | putObject key execution ifMatch => exact haside.elim
    | deleteObject key ifMatch => exact haside.elim
    | _ => trivial
  · intro answer t ht _
    exact hnext answer t ht
  · intro t oracle ht _ _ _ hle
    exact hnext _ _ (ht.trans hle)

theorem abides_read {key : Key} : Abides sha256 pipelineId (read key)
    (fun stored t => ∀ version ∈ stored, Sourced sha256 pipelineId t version) w :=
  conforms_readSourced (fun _ _ h => h) (fun _ _ _ => trivial)

theorem abides_get {runId : Option String} : Abides sha256 pipelineId (get runId)
    (fun stored t => ∀ version ∈ stored, Sourced sha256 pipelineId t version) w := by
  have hhistorical : ∀ t, Abides sha256 pipelineId (get.historical runId)
      (fun stored t => ∀ version ∈ stored, Sourced sha256 pipelineId t version) t := by
    intro t
    unfold get.historical
    split
    · rintro version ⟨⟩
    · exact abides_read
  apply conforms_bind abides_read
  intro active t _ hactive
  cases active with
  | none => exact hhistorical t
  | some stored =>
    simp only
    split
    · exact hactive
    · exact hhistorical t

theorem abides_claim {execution : OciExecution}
    (hidentified : Identified sha256 pipelineId execution) :
    Abides sha256 pipelineId (claim execution) (fun claimed t =>
      Sourced sha256 pipelineId t claimed.1 ∧
        (claimed.2 = true → claimed.1.execution = execution)) w := by
  apply conforms_bind abides_read
  intro historical t _ hhistorical
  cases historical with
  | some stored => exact ⟨hhistorical stored rfl, fun h => by cases h⟩
  | none =>
    apply conforms_put (fun _ _ h => h)
    · intros
      exact hidentified
    · intros
      trivial
    · intro u v _ _ _ _ _
      apply conforms_bind abides_read
      intro active x _ hactive
      cases active with
      | none => trivial
      | some stored => exact ⟨hactive stored rfl, fun h => by cases h⟩
    · intro u v _ _ _ hobjects
      have hactive : current v.objects .active = some ⟨u.objects.length, execution⟩ := by
        rw [hobjects]
        simp
      exact ⟨⟨recorded_of_version hactive, hidentified⟩, fun _ => rfl⟩

/-- Saving an unfinished record's successor. -/
theorem abides_save {stored : StoredExecution} {execution : OciExecution}
    (hsourced : Sourced sha256 pipelineId w stored)
    (hunfinished : stored.execution.terminal = false)
    (hidentified : Identified sha256 pipelineId execution)
    (hpipeline : stored.execution.pipelineId = execution.pipelineId)
    (hrun : stored.execution.runId = execution.runId) :
    Abides sha256 pipelineId (save stored execution) (fun saved t =>
      Sourced sha256 pipelineId t saved ∧ saved.execution = execution) w := by
  apply Safe.weaken
  · apply conforms_save (fun _ _ h => h) (fun _ _ _ => trivial) hsourced hidentified hpipeline hrun
    · intro hterminal
      rw [hunfinished] at hterminal
      cases hterminal
    · intros
      trivial
  · rintro saved t _ ⟨hsaved, hexecution, -⟩
    exact ⟨hsaved, hexecution⟩
  · intros
    trivial

theorem abides_finish (stored : StoredExecution) {execution : OciExecution}
    (hidentified : Identified sha256 pipelineId execution) :
    Abides sha256 pipelineId (finish stored execution) (fun _ _ => True) w := by
  unfold finish
  split
  · trivial
  next hterminal =>
    simp only [Bool.not_eq_true', Bool.not_eq_false] at hterminal
    apply conforms_bind abides_read
    intro active t _ hactive
    cases active with
    | none =>
      apply conforms_bind abides_read
      intro historical u _ _
      cases historical with
      | none => trivial
      | some historical =>
        simp only
        split <;> trivial
    | some active =>
      simp only [requireSameRun]
      split
      next hsame =>
        rw [Prog.ret_bind]
        apply Safe.weaken
        · exact conforms_settle (fun _ _ h => h) (fun _ _ _ => trivial) (hactive active rfl)
            hidentified hterminal hsame.1 hsame.2 (fun _ _ _ _ => trivial)
        · intros
          trivial
        · intros
          trivial
      · trivial

/-- A change of a record that leaves its run and its key. -/
theorem Identified.of_eq {execution updated : OciExecution}
    (h : Identified sha256 pipelineId execution) (hrun : updated.runId = execution.runId)
    (hkey : updated.idempotencyKey = execution.idempotencyKey) :
    Identified sha256 pipelineId updated := by
  constructor
  · rw [hrun, hkey]
    exact h.runId
  · rw [hkey]
    exact h.key

theorem abides_finishAs {stored : StoredExecution} {state : ExecutionState}
    {failureCode : Option String} {execution : Option OciExecution}
    (hidentified : Identified sha256 pipelineId (execution.getD stored.execution)) :
    Abides sha256 pipelineId (finishAs stored state failureCode execution)
      (fun _ _ => True) w := by
  refine abides_call (by trivial) ?_
  intro now t _
  exact abides_finish stored (hidentified.of_eq rfl rfl)

theorem only_captureLogs (execution : OciExecution) : (captureLogs execution).Only Aside := by
  unfold captureLogs
  split
  · trivial
  · refine ⟨trivial, fun answer => ?_⟩
    rcases answer with _ | content
    · trivial
    · refine ⟨trivial, fun answer => ?_⟩
      rcases answer with e | ⟨⟩ <;> trivial

theorem only_deleteInstance (instanceId : String) : (deleteInstance instanceId).Only Aside := by
  refine ⟨trivial, fun answer => ?_⟩
  rcases answer with _ | _ <;> trivial

theorem only_stopCaptureDelete (execution : OciExecution) :
    (stopCaptureDelete execution).Only Aside := by
  unfold stopCaptureDelete
  split
  · trivial
  next instanceId _ =>
    refine Prog.Only.bind (Prog.Only.tryCatch ?_ ?_) (fun _ => only_deleteInstance instanceId)
    · refine Prog.Only.bind (only_captureLogs execution) (fun _ => ⟨trivial, fun answer => ?_⟩)
      rcases answer with _ | _ <;> trivial
    · intro error
      exact Prog.Only.bind (only_deleteInstance instanceId) (fun _ => trivial)

theorem abides_launch {stored : StoredExecution} (hsourced : Sourced sha256 pipelineId w stored)
    (hunfinished : stored.execution.terminal = false) :
    Abides sha256 pipelineId (launch stored) (fun _ _ => True) w := by
  refine abides_call (by trivial) ?_
  intro created t ht
  rcases created with _ | instanceId
  · apply conforms_bind
    · exact abides_finishAs hsourced.identified
    · intros
      trivial
  · refine abides_call (by trivial) ?_
    intro now u hu
    apply Safe.weaken
    · exact abides_save (hsourced.mono (ht.trans hu)) hunfinished
        (hsourced.identified.of_eq rfl rfl) rfl rfl
    · intros
      trivial
    · intros
      trivial

theorem abides_reconcileEnded {stored : StoredExecution} {instanceId : String} {now : ℤ}
    {status : OciInstanceStatus} (hsourced : Sourced sha256 pipelineId w stored)
    (hunfinished : stored.execution.terminal = false) :
    Abides sha256 pipelineId (reconcileEnded stored instanceId now status)
      (fun _ _ => True) w := by
  unfold reconcileEnded
  apply conforms_bind (conforms_aside (only_captureLogs _))
  intro _ t ht _
  apply conforms_bind (conforms_aside (only_deleteInstance _))
  intro _ u hu _
  have hle := ht.trans hu
  split
  · exact abides_finishAs (hsourced.identified.of_eq rfl rfl)
  · split
    · apply conforms_bind
      · exact abides_save (hsourced.mono hle) hunfinished (hsourced.identified.of_eq rfl rfl)
          rfl rfl
      · rintro saved v _ ⟨hsaved, hexecution⟩
        apply abides_launch hsaved
        rw [hexecution]
        rfl
    · exact abides_finishAs (hsourced.identified.of_eq rfl rfl)

theorem abides_reconcileInstance {stored : StoredExecution} {instanceId : String}
    (hsourced : Sourced sha256 pipelineId w stored)
    (hunfinished : stored.execution.terminal = false) :
    Abides sha256 pipelineId (reconcileInstance stored instanceId) (fun _ _ => True) w := by
  refine abides_call (by trivial) ?_
  intro now t ht
  split
  · apply conforms_bind (conforms_aside (only_stopCaptureDelete _))
    intro _ u _ _
    exact abides_finishAs hsourced.identified
  · refine abides_call (by trivial) ?_
    intro answer u hu
    rcases answer with _ | status
    · trivial
    · have hle := ht.trans hu
      simp only [gatewayCall, Prog.ret_bind]
      split
      · apply conforms_bind (conforms_aside (only_captureLogs _))
        intro _ v hv _
        apply Safe.weaken
        · exact abides_save (hsourced.mono (hle.trans hv)) hunfinished
            (hsourced.identified.of_eq rfl rfl) rfl rfl
        · intros
          trivial
        · intros
          trivial
      · exact abides_reconcileEnded (hsourced.mono hle) hunfinished

theorem abides_reconcile {runId : Option String} :
    Abides sha256 pipelineId (reconcile runId) (fun _ _ => True) w := by
  apply conforms_bind abides_get
  intro stored t _ hsourced
  cases stored with
  | none => trivial
  | some stored =>
    have hstored := hsourced stored rfl
    have hreconciled : Abides sha256 pipelineId (reconcileStored stored) (fun _ _ => True) t := by
      unfold reconcileStored
      split
      · exact abides_finish stored hstored.identified
      next hterminal =>
        have hunfinished : stored.execution.terminal = false := by simpa using hterminal
        split
        · exact abides_launch hstored hunfinished
        · split
          · exact abides_launch hstored hunfinished
          · exact abides_reconcileInstance hstored hunfinished
    apply conforms_bind hreconciled
    intros
    trivial

theorem abides_cancel {runId : String} :
    Abides sha256 pipelineId (cancel runId) (fun _ _ => True) w := by
  apply conforms_bind abides_get
  intro stored t _ hsourced
  cases stored with
  | none => trivial
  | some stored =>
    simp only
    split
    · trivial
    · apply conforms_bind (conforms_aside (only_stopCaptureDelete _))
      intro _ u _ _
      apply conforms_bind (abides_finishAs (hsourced stored rfl).identified)
      intros
      trivial

theorem identified_firstRecord {projection : Projection} {idempotencyKey : String}
    {replayOf : Option String} {now : ℤ} (hkey : isIdempotencyKey idempotencyKey = true) :
    Identified sha256 pipelineId
      (firstRecord sha256 pipelineId projection idempotencyKey replayOf now) where
  runId := rfl
  key := hkey

theorem abides_start {projection : Projection} {idempotencyKey : String}
    {replayOf : Option String} :
    Abides sha256 pipelineId (start sha256 pipelineId projection idempotencyKey replayOf)
      (fun _ _ => True) w := by
  unfold start
  split
  · trivial
  next hkey =>
    simp only [Bool.not_eq_true', Bool.not_eq_false] at hkey
    refine abides_call (by trivial) ?_
    intro now t _
    apply conforms_bind (abides_claim (identified_firstRecord hkey))
    rintro ⟨stored, claimed⟩ u _ ⟨hsourced, hown⟩
    cases claimed with
    | false =>
      simp only [Bool.not_false, if_true]
      split <;> trivial
    | true =>
      have hexecution := hown rfl
      apply conforms_bind
      · apply abides_launch hsourced
        rw [hexecution]
        rfl
      · intros
        trivial

theorem abides_perform (call : Call) :
    Abides sha256 pipelineId (perform sha256 pipelineId call) (fun _ _ => True) w := by
  obtain ⟨projection, work⟩ := call
  cases work with
  | start idempotencyKey replayOf => exact conforms_bind abides_start (fun _ _ _ _ => trivial)
  | reconcile runId => exact abides_reconcile
  | cancel runId => exact conforms_bind abides_cancel (fun _ _ _ _ => trivial)
  | replay runId idempotencyKey =>
    apply conforms_bind
    · apply conforms_bind abides_get
      intro previous t _ _
      cases previous with
      | none => trivial
      | some previous =>
        simp only
        split
        · trivial
        · exact abides_start
    · intros
      trivial

end Calls

section Returns

/-- A reconciler of an ended run finds no other run's lock, and its conditional writes of the
active object find the version that they name. -/
def Unhindered (runId : String) : Request → World → Prop
  | .getObject .active, w => ∀ version ∈ current w.objects .active, version.value.runId = runId
  | .putObject .active _ (some etag), w => tag w.objects .active = some etag
  | .deleteObject .active etag, w => tag w.objects .active = some etag
  | _, _ => True

variable {sha256 : String → String} {pipelineId : String} {cond : Request → World → Prop}
  {w : World} {runId : String} {record : Version OciExecution}

/-- Safety of a call that has to report the record, unless the object store fails. -/
abbrev Reports {α : Type} (sha256 : String → String) (pipelineId : String)
    (cond : Request → World → Prop) (p : Action α) (Q : α → World → Prop) (w : World) : Prop :=
  Conforms sha256 pipelineId cond (fun e _ => Reported e) p Q w

theorem reports_history (hcond : ∀ o w, cond o w → Undisputed o w)
    (hrecord : current w.objects (.history runId) = some record) :
    Reports sha256 pipelineId cond (read (.history runId))
      (fun stored _ => stored = some ⟨record.value, record.etag⟩) w := by
  apply conforms_read hcond
  · intro t
    simp [Reported]
  · intro t _ ht _ _ _ hnone
    rw [ht.records _ record hrecord] at hnone
    cases hnone
  · intro t _ version ht _ _ _ hcurrent
    rw [ht.records _ record hrecord, Option.some.injEq] at hcurrent
    rw [hcurrent]

/-- Whatever run holds the lock, the ended run's record is found. -/
theorem reports_get (hcond : ∀ o w, cond o w → Undisputed o w)
    (hrecord : current w.objects (.history runId) = some record) :
    Reports sha256 pipelineId cond (get (some runId))
      (fun stored _ => ∃ version, stored = some ⟨record.value, version⟩) w := by
  have hactive : Reports sha256 pipelineId cond (read .active) (fun active _ =>
      ∀ stored ∈ active, stored.execution.runId = runId → stored.execution = record.value) w := by
    apply conforms_read hcond
    · intro t
      simp [Reported]
    · rintro t _ _ _ _ _ _ stored ⟨⟩
    · rintro t _ version ht hinv _ _ hcurrent _ ⟨⟩ hrun
      apply hinv.agree version record hcurrent
      rw [show version.value.runId = runId from hrun]
      exact ht.records _ record hrecord
  have hhistorical : ∀ t : World, Advances w.objects t.objects →
      Reports sha256 pipelineId cond (get.historical (some runId))
        (fun stored _ => ∃ version, stored = some ⟨record.value, version⟩) t := by
    intro t ht
    apply Safe.weaken (reports_history hcond (ht.records _ record hrecord))
    · rintro _ u _ rfl
      exact ⟨record.etag, rfl⟩
    · intro _ _ _ h
      exact h
  apply conforms_bind hactive
  intro active t ht hfound
  cases active with
  | none => exact hhistorical t ht
  | some stored =>
    simp only [Option.all_some, decide_eq_true_eq]
    split
    next hrun =>
      refine ⟨stored.version, ?_⟩
      rw [← hfound stored rfl hrun]
    · exact hhistorical t ht

theorem reports_finish {stored : StoredExecution}
    (hcond : ∀ o w, cond o w → Undisputed o w ∧ Unhindered runId o w)
    (hrecord : current w.objects (.history runId) = some record)
    (hterminal : record.value.terminal = true) (hrun : record.value.runId = runId) :
    Reports sha256 pipelineId cond (finish stored record.value)
      (fun finished _ => finished.execution = record.value) w := by
  have hundisputed : ∀ o w, cond o w → Undisputed o w := fun o w h => (hcond o w h).1
  have hactive : Reports sha256 pipelineId cond (read .active) (fun active t =>
      ∀ stored ∈ active, Sourced sha256 pipelineId t stored ∧
        stored.execution = record.value) w := by
    apply conforms_read hundisputed
    · intro t
      simp [Reported]
    · rintro t _ _ _ _ _ _ stored ⟨⟩
    · rintro t u version ht hinv hc hobjects hcurrent _ ⟨⟩
      refine ⟨sourced_of_current hinv hcurrent hobjects, hinv.agree version record hcurrent ?_⟩
      rw [(hcond _ t hc).2 version hcurrent]
      exact ht.records _ record hrecord
  unfold finish
  simp only [hterminal, Bool.not_true, Bool.false_eq_true, if_false]
  apply conforms_bind hactive
  intro active t ht hfound
  cases active with
  | none =>
    rw [hrun]
    apply conforms_bind (reports_history hundisputed (ht.records _ record hrecord))
    rintro _ u _ rfl
    simp only [if_true]
    rfl
  | some active =>
    obtain ⟨hsourced, hsame⟩ := hfound active rfl
    have hidentified : Identified sha256 pipelineId record.value := by
      rw [← hsame]
      exact hsourced.identified
    simp only [requireSameRun, hsame, and_self, if_true]
    rw [Prog.ret_bind]
    apply conforms_settle hundisputed (fun _ _ h => h) hsourced hidentified hterminal
    · rw [hsame]
    · rw [hsame]
    · intro u _ hc htag
      exact (htag (hcond _ u hc).2).elim

/-- The calls on the run of a record. -/
def Concerns (execution : OciExecution) : Work → Prop
  | .start idempotencyKey _ => idempotencyKey = execution.idempotencyKey
  | .reconcile runId => runId = some execution.runId
  | .cancel runId => runId = execution.runId
  | .replay .. => False

/-- What has to hold of each request of such a call: a reconciler is not hindered. -/
def Admitted (runId : String) (work : Work) (o : Request) (w : World) : Prop :=
  work = .reconcile (some runId) → Unhindered runId o w

theorem reports_cancel (hcond : ∀ o w, cond o w → Undisputed o w)
    (hrecord : current w.objects (.history runId) = some record)
    (hterminal : record.value.terminal = true) :
    Reports sha256 pipelineId cond (cancel runId) (fun e _ => e = record.value) w := by
  apply conforms_bind (reports_get hcond hrecord)
  rintro _ t _ ⟨version, rfl⟩
  simp only [hterminal, if_true]
  rfl

theorem reports_reconcile
    (hcond : ∀ o w, cond o w → Undisputed o w ∧ Unhindered runId o w)
    (hrecord : current w.objects (.history runId) = some record)
    (hterminal : record.value.terminal = true) (hrun : record.value.runId = runId) :
    Reports sha256 pipelineId cond (reconcile (some runId))
      (fun e _ => e = some record.value) w := by
  apply conforms_bind (reports_get (fun o w h => (hcond o w h).1) hrecord)
  rintro _ t ht ⟨version, rfl⟩
  apply conforms_bind
  · simp only [reconcileStored, hterminal, if_true]
    exact reports_finish hcond (ht.records _ record hrecord) hterminal hrun
  · intro finished u _ hfinished
    exact congrArg some hfinished

theorem reports_start (hcond : ∀ o w, cond o w → Undisputed o w) {projection : Projection}
    {replayOf : Option String} (hidentified : Identified sha256 pipelineId record.value)
    (hrecord : current w.objects (.history record.value.runId) = some record) :
    Reports sha256 pipelineId cond
      (start sha256 pipelineId projection record.value.idempotencyKey replayOf)
      (fun e _ => e = record.value) w := by
  simp only [start, hidentified.key, Bool.not_true, Bool.false_eq_true, if_false]
  apply conforms_request hcond
  · intros
    trivial
  · rintro answer t _ ⟨⟩
  · intro t oracle ht _ _ _ hle
    have hrecord' : current (serve oracle .clock t).2.objects (.history record.value.runId) =
      some record := hle.records _ record (ht.records _ record hrecord)
    rw [hidentified.runId] at hrecord'
    have hclaim : ∀ now, Reports sha256 pipelineId cond
        (claim (firstRecord sha256 pipelineId projection record.value.idempotencyKey replayOf now))
        (fun claimed _ => claimed = (⟨record.value, record.etag⟩, false))
        (serve oracle .clock t).2 := by
      intro now
      apply conforms_bind (reports_history hcond hrecord')
      rintro _ u _ rfl
      rfl
    apply conforms_bind (hclaim _)
    rintro _ u _ rfl
    simp only [Bool.not_false, if_true, ne_eq, not_true_eq_false, if_false]
    rfl

theorem reports_perform (hinv : Ordered sha256 pipelineId w.objects)
    (hrecord : current w.objects (.history runId) = some record) {call : Call}
    (hconcerns : Concerns record.value call.work) :
    Reports sha256 pipelineId (fun o w => Undisputed o w ∧ Admitted runId call.work o w)
      (perform sha256 pipelineId call) (fun out _ => out = some record.value) w := by
  obtain ⟨hterminal, hrun⟩ := hinv.ended runId record hrecord
  have hidentified : Identified sha256 pipelineId record.value :=
    (sourced_of_current hinv hrecord rfl).identified
  subst hrun
  obtain ⟨projection, work⟩ := call
  cases work with
  | replay runId idempotencyKey => exact hconcerns.elim
  | cancel runId =>
    obtain rfl : runId = record.value.runId := hconcerns
    apply conforms_bind (reports_cancel (fun o w h => h.1) hrecord hterminal)
    rintro _ t _ rfl
    rfl
  | reconcile runId =>
    obtain rfl : runId = some record.value.runId := hconcerns
    exact reports_reconcile (fun o w h => ⟨h.1, h.2 rfl⟩) hrecord hterminal rfl
  | start idempotencyKey replayOf =>
    obtain rfl : idempotencyKey = record.value.idempotencyKey := hconcerns
    apply conforms_bind (reports_start (fun o w h => h.1) hidentified hrecord)
    rintro _ t _ rfl
    rfl

end Returns

section Releasing

/-- Services that do not fail. -/
def reliably (oracle : Oracle) (o : Request) (w : World) : Option (Answer o × World) :=
  some (serve oracle o w)

variable {oracle : Oracle} {w : World}

theorem yields_read {key : Key} : Yields (reliably oracle) (read key) w (fun stored t =>
    stored = (current w.objects key).map (fun version => ⟨version.value, version.etag⟩) ∧
      t.objects = w.objects) := by
  have hget : reliably oracle (.getObject key) w =
    some (w.getObject key, w.settle oracle.ended) := rfl
  apply Yields.call hget
  unfold World.getObject
  cases current w.objects key with
  | none => exact .ret ⟨rfl, rfl⟩
  | some version => exact .ret ⟨rfl, rfl⟩

theorem reliably_put {key : Key} {execution : OciExecution} {ifMatch : Option ℕ}
    (htag : tag w.objects key = ifMatch) :
    reliably oracle (.putObject key execution ifMatch) w = some (.ok w.objects.length,
      { w.settle oracle.ended with objects := ⟨key, some execution, 0⟩ :: w.objects }) := by
  have htag' : tag (w.settle oracle.ended).objects key = ifMatch := htag
  have hserve : serve oracle (.putObject key execution ifMatch) w =
    (w.settle oracle.ended).putObject key execution ifMatch := rfl
  rw [reliably, hserve, World.putObject, if_pos htag']
  rfl

theorem reliably_put_refused {key : Key} {execution : OciExecution} {ifMatch : Option ℕ}
    (htag : tag w.objects key ≠ ifMatch) :
    reliably oracle (.putObject key execution ifMatch) w =
      some (.error .preconditionFailed, w.settle oracle.ended) := by
  have htag' : tag (w.settle oracle.ended).objects key ≠ ifMatch := htag
  have hserve : serve oracle (.putObject key execution ifMatch) w =
    (w.settle oracle.ended).putObject key execution ifMatch := rfl
  rw [reliably, hserve, World.putObject, if_neg htag']
  rfl

theorem yields_save {stored : StoredExecution}
    (htag : tag w.objects .active = some stored.version) :
    Yields (reliably oracle) (save stored stored.execution) w (fun saved t =>
      current t.objects .active = some ⟨saved.version, stored.execution⟩ ∧
        ∀ runId, current t.objects (.history runId) = current w.objects (.history runId)) := by
  unfold save requireSameRun
  rw [if_pos ⟨rfl, rfl⟩, Prog.ret_bind]
  exact Yields.call (reliably_put htag) (.ret (by simp))

/-- Preserving a record that the history does not contradict leaves the active object alone. -/
theorem yields_preserve {execution : OciExecution}
    (hagree : ∀ record, current w.objects (.history execution.runId) = some record →
      record.value = execution) :
    Yields (reliably oracle) (preserve execution) w
      (fun _ t => current t.objects .active = current w.objects .active) := by
  cases hrecord : current w.objects (.history execution.runId) with
  | none => exact Yields.call (reliably_put (tag_eq_none.mpr hrecord)) (.ret (by simp))
  | some record =>
    have htag : tag w.objects (.history execution.runId) ≠ none := by
      rw [ne_eq, tag_eq_none, hrecord]
      simp
    have hsettled : (w.settle oracle.ended).objects = w.objects := rfl
    apply Yields.call (reliably_put_refused htag)
    apply yields_read.bind
    rintro _ t ⟨rfl, ht⟩
    simp only [hsettled, hrecord, Option.map_some, hagree record hrecord, if_true]
    exact .ret (by rw [ht, hsettled])

theorem yields_release {active : Version OciExecution}
    (hactive : current w.objects .active = some active) :
    Yields (reliably oracle) (release active.etag) w
      (fun _ t => current t.objects .active = none) := by
  have htag : tag (w.settle oracle.ended).objects .active = some active.etag :=
    tag_eq_some.mpr ⟨active.value, hactive⟩
  have hserve : reliably oracle (.deleteObject .active active.etag) w =
      some (.ok (), { w.settle oracle.ended with objects := ⟨.active, none, 0⟩ :: w.objects }) := by
    simp only [reliably, serve, World.respond, World.deleteObject, htag, if_true]
    rfl
  exact Yields.call hserve (.ret (by simp))

/-- Where the history agrees with it, a reconciler that is left alone releases the lock of a
terminal record, and reports it. -/
theorem reconcile_releases {active : Version OciExecution} {runId : Option String}
    (hactive : current w.objects .active = some active) (hterminal : active.value.terminal = true)
    (hagree : ∀ record, current w.objects (.history active.value.runId) = some record →
      active.value = record.value)
    (hrunId : runId.all (fun runId => active.value.runId = runId) = true) :
    Yields (reliably oracle) (reconcile runId) w
      (fun out t => out = some active.value ∧ current t.objects .active = none) := by
  have hget : Yields (reliably oracle) (get runId) w (fun stored t =>
      stored = some ⟨active.value, active.etag⟩ ∧ t.objects = w.objects) := by
    apply yields_read.bind
    rintro _ t ⟨rfl, ht⟩
    simp only [hactive, Option.map_some, hrunId, if_true]
    exact .ret ⟨rfl, ht⟩
  apply hget.bind
  rintro _ t ⟨rfl, ht⟩
  have hfinish : Yields (reliably oracle) (reconcileStored ⟨active.value, active.etag⟩) t
      (fun stored u => stored.execution = active.value ∧
        current u.objects .active = none) := by
    simp only [reconcileStored, finish, hterminal, if_true, Bool.not_true, Bool.false_eq_true,
      if_false]
    apply yields_read.bind
    rintro _ u ⟨rfl, hu⟩
    rw [ht] at hu ⊢
    simp only [hactive, Option.map_some, requireSameRun, and_self, if_true]
    rw [Prog.ret_bind]
    apply (yields_save ?_).bind
    · rintro ⟨saved, version⟩ v ⟨hsaved, hhistory⟩
      apply (yields_preserve ?_).bind
      · intro preserved x hx
        rw [hsaved] at hx
        apply (yields_release hx).bind
        intro _ y hy
        exact .ret ⟨rfl, hy⟩
      · intro record hrecord
        rw [hhistory, hu] at hrecord
        exact (hagree record hrecord).symm
    · rw [hu]
      exact tag_eq_some.mpr ⟨_, hactive⟩
  apply hfinish.bind
  rintro stored u ⟨hstored, hu⟩
  exact .ret ⟨congrArg some hstored, hu⟩

end Releasing

section Consistency

/-- The services while no claim and no terminal record is disputed. -/
def undisputedServices : Machine Request Answer World := services.restrict Undisputed

/-- Each idempotency key has at most one chain of attempts. -/
def OneChain (w : World) : Prop := (chainKeys w.objects).Nodup

/-- A terminal active record and a history record of the same run are equal. -/
def RecordsAgree (w : World) : Prop :=
  ∀ active record, current w.objects .active = some active → active.value.terminal = true →
    current w.objects (.history active.value.runId) = some record → active.value = record.value

/-- A reconciler that is left alone releases the lock of a terminal record. -/
def Releasable (w : World) : Prop :=
  ∀ active oracle runId, current w.objects .active = some active →
    active.value.terminal = true →
    Option.all (fun runId => active.value.runId = runId) runId = true →
    Yields (reliably oracle) (reconcile runId) w
      (fun out t => out = some active.value ∧ current t.objects .active = none)

variable (m : Machine Request Answer World) (sha256 : String → String)
  (pipelineId : String) (cond : String → Work → Request → World → Prop)

/-- History records stay as they are in every further run. -/
def RecordsStay (cfg : OciConfig) : Prop :=
  ∀ events later, Run m (perform sha256 pipelineId) Unguarded cfg events later →
    ∀ runId record, current cfg.state.objects (.history runId) = some record →
      current later.state.objects (.history runId) = some record

/-- A start, reconcile or cancel that is issued for a run with a history record returns that
record, whatever happens meanwhile, if its requests meet a condition and the object store does
not fail. -/
def RecordReturned (cfg : OciConfig) : Prop :=
  ∀ runId record i call issued events later out last,
    current cfg.state.objects (.history runId) = some record →
    Concerns record.value call.work →
    Step m (perform sha256 pipelineId) cfg (.issued i call) issued →
    Run m (perform sha256 pipelineId) (Follows i (cond runId call.work)) issued events later →
    Step m (perform sha256 pipelineId) later (.finished i call out) last →
    out = .ok (some record.value) ∨ ∃ e, out = .error e ∧ Reported e

variable {sha256 pipelineId} {events : List OciEvent} {cfg : OciConfig}

theorem stable_true {α C : Type} (_ : C) :
    Stable (ordering sha256 pipelineId) (fun (_ : α) (_ : World) => True) := by
  intro a s t _ _
  trivial

/-- In every interleaving, with any crashes and failures, in which the lock is claimed only for
runs without a history record and terminal records are only replaced by equal ones, the records
of all runs are consistent. -/
theorem records_consistent
    (run : Run undisputedServices (perform sha256 pipelineId) Unguarded (.start .empty) events
      cfg) :
    OneChain cfg.state ∧ RecordsAgree cfg.state ∧ Releasable cfg.state ∧
      RecordsStay undisputedServices sha256 pipelineId cfg ∧
      RecordReturned undisputedServices sha256 pipelineId Admitted cfg := by
  have hstart : Ordered sha256 pipelineId World.empty.objects :=
    ⟨by simp [World.empty], by simp [World.empty, current], by simp [World.empty, current],
      by simp [World.empty, chainKeys], by simp [World.empty, chainKeys]⟩
  obtain ⟨hsafe, -⟩ := run.poolSafe (D := ordering sha256 pipelineId) stable_true stable_true
    (fun cfg i call _ _ => abides_perform call) (PoolSafe.start hstart)
  have hinv : Ordered sha256 pipelineId cfg.state.objects := hsafe.1
  refine ⟨hinv.chains, ?_, ?_, ?_, ?_⟩
  · intro active record hactive _ hrecord
    exact hinv.agree active record hactive hrecord
  · intro active oracle runId hactive hterminal hrunId
    exact reconcile_releases hactive hterminal (hinv.agree active · hactive) hrunId
  · intro events later further runId record hrecord
    have hle := (further.poolSafe (D := ordering sha256 pipelineId) stable_true stable_true
      (fun cfg i call _ _ => abides_perform call) hsafe).2
    exact hle.records runId record hrecord
  · intro runId record i call issued events later out last hrecord hconcerns hissue hrun hfinish
    have hreports : Safe
        (services.restrict (fun o w => Undisputed o w ∧ Admitted runId call.work o w))
        (ordering sha256 pipelineId) (fun out _ => out = some record.value)
        (fun e _ => Reported e) (perform sha256 pipelineId call) cfg.state :=
      reports_perform hinv hrecord hconcerns
    have hstep : ∀ o s r s', Admitted runId call.work o s →
        undisputedServices.step o s r s' → (services.restrict
          (fun o w => Undisputed o w ∧ Admitted runId call.work o w)).step o s r s' :=
      fun o s r s' hcond hdone => ⟨⟨hdone.1, hcond⟩, hdone.2⟩
    obtain ⟨hsafe', -⟩ := hsafe.step stable_true stable_true
      (fun _ call _ _ => abides_perform call) hissue
    cases hissue with
    | issue _ _ free =>
      have hdone := hrun.follow_finished hstep stable_true stable_true
        (fun _ _ _ _ h => h) (fun _ _ _ _ h => h)
        (fun _ call _ => abides_perform call) hsafe' (Function.update_self _ _ _) hreports hfinish
      cases out with
      | ok value => exact .inl (congrArg Except.ok (hdone.1 value rfl))
      | error e => exact .inr ⟨e, rfl, hdone.2 e rfl⟩

instance (o : Request) (w : World) : Decidable (Undisputed o w) :=
  match o with
  | .putObject .active execution none => inferInstanceAs (Decidable
      (current w.objects .active = none → current w.objects (.history execution.runId) = none))
  | .putObject .active execution (some etag) => inferInstanceAs (Decidable
      (execution.terminal = true → ∀ version ∈ current w.objects .active, version.etag = etag →
        version.value.terminal = true → version.value = execution))
  | .putObject (.history _) _ _ => isTrue trivial
  | .create _ => isTrue trivial
  | .getObject _ => isTrue trivial
  | .deleteObject .. => isTrue trivial
  | .putLogs .. => isTrue trivial
  | .status _ => isTrue trivial
  | .stop _ => isTrue trivial
  | .delete _ => isTrue trivial
  | .logs _ => isTrue trivial
  | .clock => isTrue trivial

/-- A provider whose clock ticks with every write. -/
def tickingOracle (w : World) : Oracle := { exampleOracle w with clock := w.objects.length }

def tickingServe (o : Request) (w : World) : Option (Answer o × World) :=
  some (serve (tickingOracle w) o w)

theorem services_of_ticking (o : Request) (w : World) (answer : Answer o) (w' : World)
    (h : tickingServe o w = some (answer, w')) : services.step o w answer w' :=
  .inl ⟨tickingOracle w, Option.some.inj h⟩

instance : DecidablePred OneChain := fun w => inferInstanceAs (Decidable (chainKeys w.objects).Nodup)

/-- A start that has not found a history record claims the lock after the run has ended, and its
key gets a second chain of attempts. -/
theorem late_claim_starts_again :
    ¬ ∀ events cfg, Run services (perform exampleDigest "jobs") Unguarded (.start .empty)
      events cfg → OneChain cfg.state := by
  intro hall
  have hplay : (play tickingServe (perform exampleDigest "jobs") (fun _ _ => true) (.start .empty)
      [.issue 0 (exampleStart "manual:one"), .exec 0, .exec 0, .exec 0, .exec 0, .exec 0, .exec 0,
        .finish 0, .issue 1 (exampleStart "manual:one"), .exec 1, .exec 1,
        .issue 2 exampleCancel, .exec 2, .exec 2, .exec 2, .exec 2, .exec 2, .exec 2, .exec 2,
        .exec 2, .finish 2, .exec 1]).any
      (fun last => decide (¬ OneChain last.state)) = true := by decide +kernel
  obtain ⟨events, cfg, hrun, htwo⟩ : ∃ events cfg,
      Run services (perform exampleDigest "jobs") Unguarded (.start .empty) events cfg ∧
        ¬ OneChain cfg.state :=
    play_reaches (m := services) (P := fun w => ¬ OneChain w) services_of_ticking
      (fun _ _ _ => trivial) hplay
  exact htwo (hall events cfg hrun)

/-- The active object holds a terminal record that the history contradicts. -/
def Contradicted (w : World) : Prop :=
  ∃ active ∈ current w.objects .active, active.value.terminal = true ∧
    ∃ record ∈ current w.objects (.history active.value.runId), active.value ≠ record.value

instance : DecidablePred Contradicted := fun w =>
  inferInstanceAs (Decidable (∃ active ∈ current w.objects .active, active.value.terminal = true ∧
    ∃ record ∈ current w.objects (.history active.value.runId), active.value ≠ record.value))

/-- Two cancellations that finish at different times leave different records. -/
theorem second_finish_contradicts :
    ¬ ∀ events cfg, Run services (perform exampleDigest "jobs") Unguarded (.start .empty)
      events cfg → RecordsAgree cfg.state := by
  intro hall
  have hplay : (play tickingServe (perform exampleDigest "jobs") (fun _ _ => true) (.start .empty)
      [.issue 0 (exampleStart "manual:one"), .exec 0, .exec 0, .exec 0, .exec 0, .exec 0, .exec 0,
        .finish 0, .issue 1 exampleCancel, .exec 1, .exec 1, .exec 1, .issue 2 exampleCancel,
        .exec 2, .exec 2, .exec 2, .exec 1, .exec 1, .exec 1, .exec 1, .exec 2, .exec 2,
        .exec 2]).any
      (fun last => decide (Contradicted last.state)) = true := by decide +kernel
  obtain ⟨events, cfg, hrun, active, hactive, hterminal, record, hrecord, hne⟩ : ∃ events cfg,
      Run services (perform exampleDigest "jobs") Unguarded (.start .empty) events cfg ∧
        Contradicted cfg.state :=
    play_reaches (m := services) (P := Contradicted) services_of_ticking
      (fun _ _ _ => trivial) hplay
  exact hne (hall events cfg hrun active record hactive hterminal hrecord)

/-- Events that do not end a worker. -/
def continues (i : ℕ) (_ : OciConfig) : OciEvent → Bool
  | .issued .. => true
  | .performed .. => true
  | .finished j _ _ => j ≠ i
  | .crashed j => j ≠ i

theorem follows_of_continues {i : ℕ} {cfg : OciConfig} {event : OciEvent}
    (h : continues i cfg event = true) : Follows i (fun _ _ => True) cfg event := by
  cases event with
  | issued j call => trivial
  | performed j call o r => exact fun _ => trivial
  | finished j call out =>
    have hne : j ≠ i := of_decide_eq_true h
    exact hne
  | crashed j =>
    have hne : j ≠ i := of_decide_eq_true h
    exact hne

/-- Whether a reconciler reports that the record it has found is of another run than the lock. -/
def changedIdentity : OciEvent → Bool
  | .finished 3 call (.error e) => call = exampleReconcile &&
      e = .lifecycle "OCI execution update changed its identity"
  | _ => false

theorem eq_of_changedIdentity {event : OciEvent} (h : changedIdentity event = true) :
    event = .finished 3 exampleReconcile
      (.error (.lifecycle "OCI execution update changed its identity")) := by
  unfold changedIdentity at h
  split at h
  · rw [Bool.and_eq_true, decide_eq_true_eq, decide_eq_true_eq] at h
    rw [h.1, h.2]
  · cases h

def hasRecord (w : World) : Bool :=
  (current w.objects (.history exampleRunId)).any (fun record => record.value.runId = exampleRunId)

/-- A run that ends, and another one that holds the lock. -/
def endedRun : List (Move Call) :=
  [.issue 0 (exampleStart "manual:one"), .exec 0, .exec 0, .exec 0, .exec 0, .exec 0, .exec 0,
    .finish 0, .issue 1 exampleCancel, .exec 1, .exec 1, .exec 1, .exec 1, .exec 1, .exec 1,
    .exec 1, .exec 1, .finish 1, .issue 2 (exampleStart "manual:two"), .exec 2, .exec 2, .exec 2,
    .exec 2, .exec 2, .exec 2, .finish 2]

/-- While another run is active, reconciling an ended one is an error. -/
theorem active_run_hinders_reconcile :
    ¬ ∀ events cfg, Run services (perform exampleDigest "jobs") Unguarded (.start .empty)
      events cfg → RecordReturned services exampleDigest "jobs" (fun _ _ _ _ => True) cfg := by
  intro hall
  have hrecord : ((record tickingServe (perform exampleDigest "jobs") (fun _ _ => true)
      (.start .empty) endedRun).bind fun done =>
        (recordMove tickingServe (perform exampleDigest "jobs") done.2
          (.issue 3 exampleReconcile)).bind fun issued =>
        (record tickingServe (perform exampleDigest "jobs") (continues 3) issued.2
          [.exec 3, .exec 3, .exec 3]).bind fun later =>
        (recordMove tickingServe (perform exampleDigest "jobs") later.2 (.finish 3)).map
          fun last => hasRecord done.2.state && changedIdentity last.1) = some true := by
    decide +kernel
  obtain ⟨⟨events, cfg⟩, hfirst, hrest⟩ := Option.bind_eq_some_iff.mp hrecord
  obtain ⟨⟨issue, issued⟩, hissue, hrest⟩ := Option.bind_eq_some_iff.mp hrest
  obtain ⟨⟨events', later⟩, hlater, hrest⟩ := Option.bind_eq_some_iff.mp hrest
  obtain ⟨⟨event, last⟩, hlast, hends⟩ := Option.map_eq_some_iff.mp hrest
  rw [Bool.and_eq_true] at hends
  obtain ⟨hrecorded, hchanged⟩ := hends
  obtain ⟨kept, hcurrent, hrun⟩ := (Option.any_eq_true _ _).mp hrecorded
  obtain ⟨hbefore, hleft⟩ : Run services (perform exampleDigest "jobs") Unguarded
      (.start .empty) events cfg ∧ ∀ j, 4 ≤ j → cfg.pool j = none :=
    record_run (n := 4) services_of_ticking (fun _ _ _ _ => trivial) (fun _ _ => rfl)
      (by decide) hfirst
  obtain ⟨hstep, hother⟩ := recordMove_step services_of_ticking hissue
  have hfree : ∀ j, 4 ≤ j → issued.pool j = none := by
    intro j hj
    rw [hother j (by simp only [Move.worker]; omega)]
    exact hleft j hj
  have hafter : Run services (perform exampleDigest "jobs") (Follows 3 fun _ _ => True) issued
      events' later :=
    (record_run (n := 4) services_of_ticking (fun _ _ _ h => follows_of_continues h) hfree
      (by decide) hlater).1
  have hend := (recordMove_step services_of_ticking hlast).1
  have hissued : issue = .issued 3 exampleReconcile := by
    simp only [recordMove] at hissue
    split at hissue
    · exact (Prod.mk.inj (Option.some.inj hissue)).1.symm
    · cases hissue
  subst hissued
  obtain rfl : event = _ := eq_of_changedIdentity hchanged
  have hconcerns : Concerns kept.value exampleReconcile.work :=
    congrArg some (of_decide_eq_true hrun).symm
  rcases hall events cfg hbefore exampleRunId kept 3 exampleReconcile issued events' later _ last
    hcurrent hconcerns hstep hafter hend with hok | ⟨e, herror, hreported⟩
  · cases hok
  · cases herror
    simp [Reported] at hreported

/-- Without the conditions, none of the three holds. -/
theorem records_disputed :
    (¬ ∀ events cfg, Run services (perform exampleDigest "jobs") Unguarded (.start .empty)
      events cfg → OneChain cfg.state) ∧
    (¬ ∀ events cfg, Run services (perform exampleDigest "jobs") Unguarded (.start .empty)
      events cfg → RecordsAgree cfg.state) ∧
    ¬ ∀ events cfg, Run services (perform exampleDigest "jobs") Unguarded (.start .empty)
      events cfg → RecordReturned services exampleDigest "jobs" (fun _ _ _ _ => True) cfg :=
  ⟨late_claim_starts_again, second_finish_contradicts, active_run_hinders_reconcile⟩

/-- A run that ends and one that is started after it. -/
theorem records_consistent_ended_run :
    ∃ events cfg, Run undisputedServices (perform exampleDigest "jobs") Unguarded (.start .empty)
        events cfg ∧
      chainKeys cfg.state.objects = ["manual:two", "manual:one"] ∧
      OneChain cfg.state ∧ RecordsAgree cfg.state ∧ Releasable cfg.state ∧
      RecordsStay undisputedServices exampleDigest "jobs" cfg ∧
      RecordReturned undisputedServices exampleDigest "jobs" Admitted cfg := by
  have hplay : (play (fun o w => if Undisputed o w then tickingServe o w else none)
      (perform exampleDigest "jobs") (fun _ _ => true) (.start .empty) endedRun).any
      (fun last => decide (chainKeys last.state.objects = ["manual:two", "manual:one"])) =
        true := by decide +kernel
  have hserve : ∀ o w answer w',
      (if Undisputed o w then tickingServe o w else none) = some (answer, w') →
      undisputedServices.step o w answer w' := by
    intro o w answer w' h
    split at h
    next hundisputed => exact ⟨hundisputed, services_of_ticking o w answer w' h⟩
    · cases h
  obtain ⟨events, cfg, hrun, hkeys⟩ : ∃ events cfg,
      Run undisputedServices (perform exampleDigest "jobs") Unguarded (.start .empty) events cfg ∧
        chainKeys cfg.state.objects = ["manual:two", "manual:one"] :=
    play_reaches (P := fun w => chainKeys w.objects = ["manual:two", "manual:one"]) hserve
      (fun _ _ _ => trivial) hplay
  exact ⟨events, cfg, hrun, hkeys, records_consistent hrun⟩

end Consistency

end Dander.Oci
