import Dander.LeaseSafety
import Dander.PipelineExecution

/-!
# Truthful run histories

A run that has ended stays ended until it is restarted: in SQLite always, and in PostgreSQL and
BigQuery as long as no checkpoint is made of a run that has ended. An execution that has lost its
lease makes one before it notices the loss, after a later execution has marked it as interrupted.
-/
namespace Dander.PipelineHistory

open Interleaving
open Leases (LeaseHandle LeaseTable LeaseError)

section Statements

variable {kind : StoreKind} {history : History} {statement : Statement} {runId : String}
  {record : RunRecord}

/-- No record of a run that has ended shows it running. -/
def StaysTerminal (before after : History) : Prop :=
  ∀ runId, (∃ record ∈ before, record.runId = runId ∧ record.status.terminal = true) →
    ∀ record ∈ after, record.runId = runId → record.status.terminal = true

def Statement.restarts : Statement → Bool
  | .restart .. | .mergeRestart .. => true
  | _ => false

/-- A finish is with a terminal status. -/
def Statement.ends : Statement → Prop
  | .finish _ status _ _ _ _ => status.terminal = true
  | _ => True

/-- In PostgreSQL and BigQuery, no checkpoint is of a run that has ended; in BigQuery, no run is
started that has a record. -/
def Admitted (kind : StoreKind) (history : History) : Statement → Prop
  | .checkpoint runId _ _ => kind ≠ .sqlite →
    ∀ record ∈ history, record.runId = runId → record.status.terminal = false
  | .insert runId _ _ => kind = .bigquery → ∀ record ∈ history, record.runId ≠ runId
  | _ => True

abbrev Unique (history : History) : Prop := (history.map RunRecord.runId).Nodup

theorem eq_of_runId (hunique : Unique history) {other : RunRecord} (hrecord : record ∈ history)
    (hother : other ∈ history) (hid : record.runId = other.runId) : record = other :=
  List.inj_on_of_nodup_map hunique hrecord hother hid

theorem StaysTerminal.refl (hunique : Unique history) : StaysTerminal history history := by
  rintro runId ⟨ended, hended, hid, hterminal⟩ record hrecord hrun
  rw [eq_of_runId hunique hrecord hended (hrun.trans hid.symm)]
  exact hterminal

theorem StaysTerminal.append (hunique : Unique history) (hnew : has history record.runId = false) :
    StaysTerminal history (history ++ [record]) := by
  rintro runId ⟨ended, hended, hid, hterminal⟩ later hlater hrun
  rcases List.mem_append.mp hlater with hold | hadded
  · exact StaysTerminal.refl hunique runId ⟨ended, hended, hid, hterminal⟩ later hold hrun
  · rw [List.mem_singleton] at hadded
    subst hadded
    exact absurd (hid.trans hrun.symm) (has_eq_false.mp hnew ended hended)

/-- An update of records that leaves the runs and sets no terminal status back. -/
theorem StaysTerminal.map {set : RunRecord → RunRecord} (hunique : Unique history)
    (hrun : ∀ record, (set record).runId = record.runId)
    (hset : ∀ record ∈ history, record.status.terminal = true →
      (set record).status.terminal = true) :
    StaysTerminal history (history.map set) := by
  rintro runId ⟨ended, hended, hid, hterminal⟩ later hlater hlaterRun
  obtain ⟨before, hbefore, rfl⟩ := List.mem_map.mp hlater
  have hsame : before = ended := by
    apply eq_of_runId hunique hbefore hended
    rw [← hrun before, hlaterRun, hid]
  subst hsame
  exact hset before hbefore hterminal

theorem unique_map {set : RunRecord → RunRecord} (hunique : Unique history)
    (hrun : ∀ record, (set record).runId = record.runId) : Unique (history.map set) := by
  have hids : (history.map set).map RunRecord.runId = history.map RunRecord.runId := by
    rw [List.map_map]
    exact List.map_congr_left fun record _ => hrun record
  rwa [Unique, hids]

theorem unique_append (hunique : Unique history) (hnew : has history record.runId = false) :
    Unique (history ++ [record]) := by
  rw [Unique, List.map_append, List.nodup_append]
  refine ⟨hunique, by simp, ?_⟩
  intro a ha b hb heq
  obtain ⟨old, hold, rfl⟩ := List.mem_map.mp ha
  rw [List.map_cons, List.map_nil, List.mem_singleton] at hb
  exact has_eq_false.mp hnew old hold (heq.trans hb)

/-- What a statement of a store does: nothing, a new record, or an update of some records. -/
inductive Effect (history : History) : History → Prop
  | same : Effect history history
  | added (record : RunRecord) (hnew : has history record.runId = false) :
      Effect history (history ++ [record])
  | mapped (set : RunRecord → RunRecord) (hrun : ∀ record, (set record).runId = record.runId) :
      Effect history (history.map set)

theorem Effect.updateRun {set : RunRecord → RunRecord}
    (hset : ∀ record, (set record).runId = record.runId) :
    Effect history (updateRun runId set history) := by
  refine .mapped (fun record => if record.runId = runId then set record else record) ?_
  intro record
  by_cases hid : record.runId = runId <;> simp [hid, hset]

theorem Effect.unique {after : History} (h : Effect history after) (hunique : Unique history) :
    Unique after := by
  cases h with
  | same => exact hunique
  | added record hnew => exact unique_append hunique hnew
  | mapped set hrun => exact unique_map hunique hrun

theorem effect_restart {source pipelineId : String} : Effect history
    (settle history (Sqlite.restartRetryable runId source pipelineId history)).2 := by
  unfold Sqlite.restartRetryable
  cases hhas : has history runId with
  | false => exact .added _ hhas
  | true =>
    rw [if_pos rfl]
    split
    · exact .updateRun fun _ => rfl
    · exact .same

theorem effect_insert {source pipelineId message : String} : Effect history
    (settle history (if has history runId then .error message
      else .ok (history ++ [started runId source pipelineId]))).2 := by
  cases hhas : has history runId with
  | false => exact .added _ hhas
  | true => exact .same

theorem effect_exec (hadmitted : Admitted kind history statement) :
    Effect history (kind.exec statement history).2 := by
  cases statement with
  | insert runId source pipelineId =>
    cases kind with
    | sqlite => exact effect_insert
    | postgresql => exact effect_insert
    | bigquery => exact .added _ (has_eq_false.mpr (hadmitted rfl))
  | restart runId source pipelineId =>
    cases kind with
    | sqlite => exact effect_restart
    | postgresql => exact effect_restart
    | bigquery => exact .same
  | assertRetryable runId source pipelineId => cases kind <;> exact .same
  | mergeRestart runId source pipelineId =>
    cases kind with
    | sqlite => exact .same
    | postgresql => exact .same
    | bigquery =>
      simp only [StoreKind.exec, Bigquery.mergeRestart]
      cases hhas : has history runId with
      | false => exact .added _ hhas
      | true => exact .updateRun fun _ => rfl
  | checkpoint runId stage totals => cases kind <;> exact .updateRun fun _ => rfl
  | finish runId status totals failureStage code summary =>
    cases kind <;> exact .updateRun fun _ => rfl
  | reconcile pipelineId currentRunId =>
    have hmapped : Effect history (interruptOthers pipelineId currentRunId history) := by
      refine .mapped _ ?_
      intro record
      split <;> rfl
    cases kind <;> exact hmapped

theorem StaysTerminal.updateRun {set : RunRecord → RunRecord} (hunique : Unique history)
    (hrun : ∀ record, (set record).runId = record.runId)
    (hset : ∀ record ∈ history, record.runId = runId → record.status.terminal = true →
      (set record).status.terminal = true) :
    StaysTerminal history (updateRun runId set history) := by
  refine .map hunique ?_ ?_
  · intro record
    by_cases hid : record.runId = runId <;> simp [hid, hrun]
  · intro record hrecord hterminal
    by_cases hid : record.runId = runId
    · rw [if_pos hid]
      exact hset record hrecord hid hterminal
    · rwa [if_neg hid]

theorem StaysTerminal.insert {source pipelineId message : String} (hunique : Unique history) :
    StaysTerminal history (settle history (if has history runId then .error message
      else .ok (history ++ [started runId source pipelineId]))).2 := by
  cases hhas : has history runId with
  | false => exact .append hunique hhas
  | true => exact .refl hunique

theorem StaysTerminal.overwrite {status : RunStatus} {stage : RunStage} {totals : Totals}
    {failureStage : Option RunStage} {code summary : Option String} (hunique : Unique history)
    (hstatus : status.terminal = true) :
    StaysTerminal history
      (PipelineHistory.updateRun runId
        (overwritten status stage totals failureStage code summary) history) :=
  .updateRun hunique (fun _ => rfl) fun _ _ _ _ => hstatus

/-- A checkpoint that sets the status is of a run that has not ended. -/
theorem StaysTerminal.checkpoint {stage : RunStage} {totals : Totals} (hunique : Unique history)
    (hrunning : ∀ record ∈ history, record.runId = runId → record.status.terminal = false) :
    StaysTerminal history
      (PipelineHistory.updateRun runId (overwritten .running stage totals none none none)
        history) := by
  refine .updateRun hunique (fun _ => rfl) ?_
  intro record hrecord hid hterminal
  rw [hrunning record hrecord hid] at hterminal
  cases hterminal

/-- Only a restart sets a run that has ended back to running. -/
theorem staysTerminal_exec (hunique : Unique history) (hadmitted : Admitted kind history statement)
    (hends : statement.ends) (hrestarts : statement.restarts = false) :
    StaysTerminal history (kind.exec statement history).2 := by
  cases statement with
  | insert runId source pipelineId =>
    cases kind with
    | sqlite => exact .insert hunique
    | postgresql => exact .insert hunique
    | bigquery => exact .append hunique (has_eq_false.mpr (hadmitted rfl))
  | restart runId source pipelineId => cases hrestarts
  | assertRetryable runId source pipelineId => cases kind <;> exact .refl hunique
  | mergeRestart runId source pipelineId => cases hrestarts
  | checkpoint runId stage totals =>
    cases kind with
    | sqlite => exact .updateRun hunique (fun _ => rfl) fun _ _ _ hterminal => hterminal
    | postgresql => exact .checkpoint hunique (hadmitted (by simp))
    | bigquery => exact .checkpoint hunique (hadmitted (by simp))
  | finish runId status totals failureStage code summary =>
    cases kind with
    | sqlite => exact .overwrite hunique hends
    | postgresql => exact .overwrite hunique hends
    | bigquery => exact .overwrite hunique hends
  | reconcile pipelineId currentRunId =>
    have hstays : StaysTerminal history (interruptOthers pipelineId currentRunId history) := by
      refine .map hunique ?_ ?_
      · intro record
        split <;> rfl
      · intro record _ hterminal
        split
        · rfl
        · exact hterminal
    cases kind <;> exact hstays

end Statements

section Programs

variable {F : Type} {executor : Executor F} {runId : String} {progress : Progress}

/-- What an execution finishes, it finishes with a terminal status. -/
def Ends : ExecutionOp → Prop
  | .statement statement => statement.ends
  | _ => True

theorem record_only {statement : Statement} (hends : statement.ends) :
    (record (F := F) progress statement).Only Ends := by
  refine ⟨hends, ?_⟩
  intro reply
  cases reply <;> trivial

theorem recordAll_only {statements : List Statement}
    (hends : ∀ statement ∈ statements, statement.ends) :
    (recordAll (F := F) progress statements).Only Ends := by
  induction statements with
  | nil => trivial
  | cons statement rest ih =>
    refine (record_only (hends statement List.mem_cons_self)).bind fun _ => ih ?_
    exact fun later hlater => hends later (List.mem_cons_of_mem _ hlater)

theorem verify_only : (verify (F := F) progress).Only Ends := by
  unfold verify
  cases progress.lease with
  | none => trivial
  | some lease =>
    refine ⟨trivial, ?_⟩
    intro reply
    cases reply <;> trivial

theorem staged_only {α : Type} {reply : Except F α} : (staged progress reply).Only Ends := by
  cases reply <;> trivial

theorem exit_only {lease : Option LeaseHandle} : (Executor.exit (F := F) lease).Only Ends := by
  cases lease with
  | none => trivial
  | some lease => exact ⟨trivial, fun _ => trivial⟩

theorem publishAssets_only {indices : List ℕ} :
    (Executor.publishAssets (F := F) progress indices).Only Ends := by
  induction indices with
  | nil => trivial
  | cons index rest ih =>
    refine verify_only.bind fun _ => ?_
    exact ⟨trivial, fun reply => staged_only.bind fun _ => ih⟩

theorem publish_only : (executor.publish runId progress).Only Ends := by
  have hmanifest : (executor.publishManifest runId progress).Only Ends := by
    unfold Executor.publishManifest
    split
    · refine verify_only.bind fun _ => ?_
      exact ⟨trivial, fun _ => staged_only⟩
    · trivial
  have hregistry : (executor.publishRegistry progress).Only Ends := by
    unfold Executor.publishRegistry
    split
    · refine verify_only.bind fun _ => ?_
      exact ⟨trivial, fun _ => staged_only⟩
    · trivial
  exact hmanifest.bind fun _ => hregistry.bind fun _ => publishAssets_only

theorem ingest_only : (executor.ingest runId progress).Only Ends := by
  unfold Executor.ingest
  split
  · trivial
  · refine ⟨trivial, fun reply => ?_⟩
    exact staged_only.bind fun _ => trivial

theorem transform_only : (executor.transform runId progress).Only Ends := by
  unfold Executor.transform
  split
  · have hcheckpoint : ∀ totals, Statement.ends (.checkpoint runId .transform totals) :=
      fun _ => trivial
    refine (record_only (hcheckpoint _)).bind fun _ => verify_only.bind fun _ => ?_
    exact ⟨trivial, fun reply => staged_only.bind fun _ => trivial⟩
  · trivial

theorem metadata_only : (executor.metadata runId progress).Only Ends := by
  unfold Executor.metadata
  split
  · have hcheckpoint : ∀ totals, Statement.ends (.checkpoint runId .metadata totals) :=
      fun _ => trivial
    refine (record_only (hcheckpoint _)).bind fun _ => ⟨trivial, fun reply => ?_⟩
    exact staged_only.bind fun _ => publish_only.bind fun _ => trivial
  · trivial

theorem stages_only : (executor.stages runId progress).Only Ends := by
  have hfinish : ∀ totals, Statement.ends (.finish runId .succeeded totals none none none) :=
    fun _ => rfl
  exact ingest_only.bind fun _ => transform_only.bind fun _ => metadata_only.bind fun _ =>
    verify_only.bind fun _ => (record_only (hfinish _)).bind fun _ => trivial

theorem attempt_only : (executor.attempt runId progress).Only Ends := by
  have hskipped : Statement.ends (.finish runId .skipped .zero none none none) := rfl
  have hreconcile : Statement.ends (.reconcile executor.pipelineId runId) := trivial
  unfold Executor.attempt
  split
  · refine ⟨trivial, fun reply => ?_⟩
    cases reply with
    | error error => trivial
    | ok lease =>
      cases lease with
      | none => exact (record_only hskipped).bind fun _ => trivial
      | some lease =>
        exact (record_only hreconcile).bind fun _ => stages_only.bind fun _ => trivial
  · exact stages_only.bind fun _ => trivial

theorem fail_only {raised : Raised F} : (executor.fail runId raised).Only Ends :=
  ⟨rfl, fun _ => exit_only.bind fun _ => trivial⟩

theorem execute_only {kind : StoreKind} {retry : Bool} :
    (executor.execute kind runId retry).Only Ends := by
  have hstart : ∀ call : HistoryCall, (∀ a b c d e f, call ≠ .finish a b c d e f) →
      ∀ statement ∈ kind.statements call, statement.ends := by
    intro call hnot statement hmem
    cases call with
    | start runId source pipelineId =>
      rw [StoreKind.statements, List.mem_singleton] at hmem
      subst hmem
      trivial
    | restartRetryable runId source pipelineId =>
      cases kind <;> simp only [StoreKind.statements, List.mem_cons, List.not_mem_nil, or_false] at hmem
      · subst hmem
        trivial
      · subst hmem
        trivial
      · rcases hmem with rfl | rfl <;> trivial
    | checkpoint runId stage totals =>
      rw [StoreKind.statements, List.mem_singleton] at hmem
      subst hmem
      trivial
    | finish a b c d e f => exact absurd rfl (hnot a b c d e f)
    | reconcileInterrupted pipelineId currentRunId =>
      rw [StoreKind.statements, List.mem_singleton] at hmem
      subst hmem
      trivial
  refine (recordAll_only (hstart _ ?_)).bind fun _ => ?_
  · intro a b c d e f heq
    cases retry <;> cases heq
  · refine (attempt_only.tryCatch fun _ => fail_only).bind fun reached => ?_
    cases reached with
    | none => trivial
    | some progress => exact exit_only.bind fun _ => trivial

theorem heartbeats_only {lease : LeaseHandle} {count : ℕ} :
    (heartbeats (F := F) lease count).Only Ends := by
  induction count with
  | zero => trivial
  | succ count ih =>
    refine ⟨trivial, fun reply => ?_⟩
    cases reply with
    | true => exact ih
    | false => trivial

theorem body_only {kind : StoreKind} (call : ExecutionCall F) : (body kind call).Only Ends := by
  cases call with
  | execute executor runId retry => exact execute_only
  | heartbeats lease count => exact heartbeats_only

end Programs

section Runs

variable {F L : Type}

abbrev Executions (F L : Type) := Config ExecutionOp (ExecutionOp.Res F) (Raised F) Completion
  (ExecutionCall F) (World L)

abbrev ExecutionEvent (F : Type) := Event ExecutionOp (ExecutionOp.Res F) (Raised F) Completion
  (ExecutionCall F)

/-- Every statement is admitted in the history it is made on. -/
def StatementsAdmitted (kind : StoreKind) (cfg : Executions F L) (event : ExecutionEvent F) :
    Prop :=
  ∀ i call statement reply, event = .performed i call (.statement statement) reply →
    Admitted kind cfg.state.history statement

/-- The step restarts a run. -/
def restarting : ExecutionEvent F → Bool
  | .performed _ _ (.statement statement) _ => statement.restarts
  | _ => false

variable {kind : StoreKind} {leases : Machine LeaseOp (LeaseOp.Res F) L} {l : L}
  {cfg cfg' : Executions F L} {event : ExecutionEvent F} {events : List (ExecutionEvent F)}

/-- A step performs a statement on the history, or leaves it as it is. -/
theorem history_step (next : Step (services kind leases) (body kind) cfg event cfg') :
    cfg'.state.history = cfg.state.history ∨
      ∃ i call statement reply next, event = .performed i call (.statement statement) reply ∧
        cfg.pool i = some (call, .call (.statement statement) next) ∧
        cfg'.state.history = (kind.exec statement cfg.state.history).2 := by
  cases next with
  | issue i call free => exact .inl rfl
  | finish i call p out live ended => exact .inl rfl
  | crash i => exact .inl rfl
  | perform i call o next reply world live done =>
    cases o with
    | statement statement =>
      obtain ⟨hexec, -⟩ := done
      refine .inr ⟨i, call, statement, reply, next, rfl, live, ?_⟩
      rw [hexec]
    | acquire pipelineId runId => exact .inl done.1
    | verify lease => exact .inl done.1
    | release lease => exact .inl done.1
    | heartbeat lease => exact .inl done.1
    | ingest runId => exact .inl (congrArg World.history done)
    | build => exact .inl (congrArg World.history done)
    | compile => exact .inl (congrArg World.history done)
    | publishManifest runId => exact .inl (congrArg World.history done)
    | publishRegistry => exact .inl (congrArg World.history done)
    | publishAsset index => exact .inl (congrArg World.history done)

theorem unique_run (run : Run (services kind leases) (body kind) (StatementsAdmitted kind)
    (.start ⟨[], l⟩) events cfg) : Unique cfg.state.history := by
  induction run with
  | refl => exact List.nodup_nil
  | snoc before admitted next ih =>
    rcases history_step next with hsame | ⟨i, call, statement, reply, -, hevent, -, hafter⟩
    · rwa [hsame]
    · rw [hafter]
      exact (effect_exec (admitted i call statement reply hevent)).unique ih

/-- After every run of executions, each further step that does not restart a run leaves the runs
that have ended ended. -/
theorem terminal_runs_stay (run : Run (services kind leases) (body kind)
      (StatementsAdmitted kind) (.start ⟨[], l⟩) events cfg)
    (hadmitted : StatementsAdmitted kind cfg event)
    (next : Step (services kind leases) (body kind) cfg event cfg')
    (hrestarts : restarting event = false) :
    StaysTerminal cfg.state.history cfg'.state.history := by
  have hunique := unique_run run
  rcases history_step next with hsame | ⟨i, call, statement, reply, rest, rfl, hlive, hafter⟩
  · rw [hsame]
    exact .refl hunique
  · rw [hafter]
    have honly := run.only body_only i call _ hlive
    exact staysTerminal_exec hunique (hadmitted i call statement reply rfl) honly.1 hrestarts

/-- Run histories are truthful where no checkpoint is of a run that has ended and no start is of a
run that has a record: no run that has ended goes back to running but through a restart, in any
interleaving of executions on any of the stores; and the stores hold the same statuses after every
call of a sequence, exactly then. -/
theorem histories_truthful {F L : Type} (kind : StoreKind)
    (leases : Machine LeaseOp (LeaseOp.Res F) L) (l : L) (calls : List HistoryCall) :
    (∀ (events : List (ExecutionEvent F)) (cfg cfg' : Executions F L) (event : ExecutionEvent F),
      Run (services kind leases) (body kind) (StatementsAdmitted kind) (.start ⟨[], l⟩) events cfg →
      StatementsAdmitted kind cfg event → Step (services kind leases) (body kind) cfg event cfg' →
      restarting event = false → StaysTerminal cfg.state.history cfg'.state.history) ∧
    ((∀ before, before <+: calls → Agree (StoreKind.sqlite.calls before)
        (StoreKind.postgresql.calls before) (StoreKind.bigquery.calls before)) ↔
      ∀ before call, before ++ [call] <+: calls →
        Admissible (StoreKind.sqlite.calls before) call) := by
  constructor
  · intro events cfg cfg' event run hadmitted next hrestarts
    exact terminal_runs_stay run hadmitted next hrestarts
  · exact (calls_agree_iff calls).1

/-- The leases of PostgreSQL, for thirty seconds each. -/
def postgresqlLeases : Machine LeaseOp (LeaseOp.Res LeaseError) LeaseTable where
  step
    | .acquire pipelineId runId, table, reply, table' =>
      ∃ granted, Leases.postgresql.step (.acquire 30 pipelineId runId) table granted table' ∧
        reply = granted.map fun token =>
          token.map fun token => ⟨pipelineId, runId, token, 30, none⟩
    | .verify lease, table, reply, table' =>
      ∃ owned, Leases.postgresql.step (.heartbeat 30 lease) table owned table' ∧
        reply = if owned then .ok () else .error "Pipeline lease ownership was lost"
    | .release lease, table, _, table' =>
      ∃ owned, Leases.postgresql.step (.release lease) table owned table'
    | .heartbeat lease, table, reply, table' =>
      Leases.postgresql.step (.heartbeat 30 lease) table reply table'

/-- The server's clock, forty seconds later. -/
def later (table : LeaseTable) : Leases.Readings :=
  ⟨table.clock + 40, table.clock + 40, table.clock + 40, ⟨le_rfl, le_rfl⟩⟩

/-- One lease operation, forty seconds after the last one. -/
def leaseExec : (o : LeaseOp) → LeaseTable → LeaseOp.Res LeaseError o × LeaseTable
  | .acquire pipelineId runId, table =>
    let done := Leases.postgresqlExec (later table) (.acquire 30 pipelineId runId)
      (table.showing (table.clock + 40))
    (done.1.map fun token => token.map fun token => ⟨pipelineId, runId, token, 30, none⟩, done.2)
  | .verify lease, table =>
    let done := Leases.postgresqlExec (later table) (.heartbeat 30 lease)
      (table.showing (table.clock + 40))
    (if done.1 then .ok () else .error "Pipeline lease ownership was lost", done.2)
  | .release lease, table =>
    ((), (Leases.postgresqlExec (later table) (.release lease)
      (table.showing (table.clock + 40))).2)
  | .heartbeat lease, table =>
    Leases.postgresqlExec (later table) (.heartbeat 30 lease) (table.showing (table.clock + 40))

theorem leaseExec_step (o : LeaseOp) (table : LeaseTable) :
    postgresqlLeases.step o table (leaseExec o table).1 (leaseExec o table).2 := by
  have hclock : table.clock ≤ table.clock + 40 := by simp
  cases o with
  | acquire pipelineId runId => exact ⟨_, ⟨later table, hclock, rfl⟩, rfl⟩
  | verify lease => exact ⟨_, ⟨later table, hclock, rfl⟩, rfl⟩
  | release lease => exact ⟨_, later table, hclock, rfl⟩
  | heartbeat lease => exact ⟨later table, hclock, rfl⟩

/-- Services whose stages all succeed. -/
def servicesExec (kind : StoreKind) : (o : ExecutionOp) → World LeaseTable →
    Option (ExecutionOp.Res LeaseError o × World LeaseTable)
  | .statement statement, world =>
    let done := kind.exec statement world.history
    some (done.1, ⟨done.2, world.leases⟩)
  | .acquire pipelineId runId, world =>
    let done := leaseExec (.acquire pipelineId runId) world.leases
    some (done.1, ⟨world.history, done.2⟩)
  | .verify lease, world =>
    let done := leaseExec (.verify lease) world.leases
    some (done.1, ⟨world.history, done.2⟩)
  | .release lease, world =>
    let done := leaseExec (.release lease) world.leases
    some (done.1, ⟨world.history, done.2⟩)
  | .heartbeat lease, world =>
    let done := leaseExec (.heartbeat lease) world.leases
    some (done.1, ⟨world.history, done.2⟩)
  | .ingest _, world => some (.ok (1, 5, 5), world)
  | .build, world => some (.ok (1, 0), world)
  | .compile, world => some (.ok 1, world)
  | .publishManifest _, world => some (.ok (), world)
  | .publishRegistry, world => some (.ok (), world)
  | .publishAsset _, world => some (.ok (), world)

theorem servicesExec_step (kind : StoreKind) (o : ExecutionOp) (world : World LeaseTable)
    (reply : ExecutionOp.Res LeaseError o) (world' : World LeaseTable)
    (h : servicesExec kind o world = some (reply, world')) :
    (services kind postgresqlLeases).step o world reply world' := by
  cases o with
  | statement statement =>
    obtain ⟨rfl, rfl⟩ := Prod.mk.inj (Option.some.inj h)
    exact ⟨rfl, rfl⟩
  | acquire pipelineId runId =>
    obtain ⟨rfl, rfl⟩ := Prod.mk.inj (Option.some.inj h)
    exact ⟨rfl, leaseExec_step (.acquire pipelineId runId) world.leases⟩
  | verify lease =>
    obtain ⟨rfl, rfl⟩ := Prod.mk.inj (Option.some.inj h)
    exact ⟨rfl, leaseExec_step (.verify lease) world.leases⟩
  | release lease =>
    obtain ⟨rfl, rfl⟩ := Prod.mk.inj (Option.some.inj h)
    exact ⟨rfl, leaseExec_step (.release lease) world.leases⟩
  | heartbeat lease =>
    obtain ⟨rfl, rfl⟩ := Prod.mk.inj (Option.some.inj h)
    exact ⟨rfl, leaseExec_step (.heartbeat lease) world.leases⟩
  | ingest runId => exact (Prod.mk.inj (Option.some.inj h)).2.symm
  | build => exact (Prod.mk.inj (Option.some.inj h)).2.symm
  | compile => exact (Prod.mk.inj (Option.some.inj h)).2.symm
  | publishManifest runId => exact (Prod.mk.inj (Option.some.inj h)).2.symm
  | publishRegistry => exact (Prod.mk.inj (Option.some.inj h)).2.symm
  | publishAsset index => exact (Prod.mk.inj (Option.some.inj h)).2.symm

def nightly : Executor LeaseError where
  pipelineId := "p"
  source := "s"
  leased := true
  repair := false
  buildModels := true
  metadataStore := false
  registryOutput := false
  catalogPublisher := false
  selectsNone := false
  classify _ _ := ("lease_failed", "The pipeline lease was lost.")
  validated := by decide

def execution (runId : String) : ExecutionCall LeaseError := .execute nightly runId false

/-- The first execution ingests while its lease expires, and a second one starts. -/
def overtaken : List (Move (ExecutionCall LeaseError)) :=
  [.issue 0 (execution "a"), .exec 0, .exec 0, .exec 0, .exec 0, .issue 1 (execution "b"), .exec 1,
    .exec 1, .exec 1]

def statusOf (history : History) (runId : String) : Option RunStatus :=
  (history.find? fun record => decide (record.runId = runId)).map RunRecord.status

theorem statusOf_eq_some {history : History} {runId : String} {status : RunStatus}
    (h : statusOf history runId = some status) :
    ∃ record ∈ history, record.runId = runId ∧ record.status = status := by
  obtain ⟨record, hfind, hstatus⟩ := Option.map_eq_some_iff.mp h
  have hrun := List.find?_some hfind
  exact ⟨record, List.mem_of_find?_eq_some hfind, of_decide_eq_true hrun, hstatus⟩

theorem histories_truthful_overtaken :
    (∃ events cfg event cfg',
      Run (services .sqlite postgresqlLeases) (body .sqlite) (StatementsAdmitted .sqlite)
        (.start ⟨[], .empty 0⟩) events cfg ∧
      Step (services .sqlite postgresqlLeases) (body .sqlite) cfg event cfg' ∧
      statusOf cfg.state.history "a" = some .failed ∧
      StaysTerminal cfg.state.history cfg'.state.history) ∧
    Agree (StoreKind.sqlite.calls [.start "a" "s" none])
      (StoreKind.postgresql.calls [.start "a" "s" none])
      (StoreKind.bigquery.calls [.start "a" "s" none]) := by
  have hguard : ∀ (cfg : Executions LeaseError LeaseTable) (event : ExecutionEvent LeaseError),
      StatementsAdmitted .sqlite cfg event := by
    intro cfg event i call statement reply _
    cases statement with
    | insert runId source pipelineId => exact fun hkind => by cases hkind
    | checkpoint runId stage totals => exact fun hkind => absurd rfl hkind
    | restart runId source pipelineId => trivial
    | assertRetryable runId source pipelineId => trivial
    | mergeRestart runId source pipelineId => trivial
    | finish runId status totals failureStage code summary => trivial
    | reconcile pipelineId currentRunId => trivial
  constructor
  · obtain ⟨events, cfg, event, cfg', run, next, hchecked⟩ :
        ∃ (events : _) (cfg : Executions LeaseError LeaseTable) (event : _) (cfg' : _),
          Run (services .sqlite postgresqlLeases) (body .sqlite) (StatementsAdmitted .sqlite)
            (.start ⟨[], .empty 0⟩) events cfg ∧
          Step (services .sqlite postgresqlLeases) (body .sqlite) cfg event cfg' ∧
          (decide (statusOf cfg.state.history "a" = some .failed) && !restarting event) = true :=
      record_then (P := fun before event _ =>
          decide (statusOf before.history "a" = some .failed) && !restarting event)
        2 overtaken (.exec 0) (fun _ _ => true) (servicesExec_step .sqlite)
        (fun cfg event _ _ => hguard cfg event) (by decide) (by decide +kernel)
    rw [Bool.and_eq_true, decide_eq_true_eq, Bool.not_eq_true'] at hchecked
    exact ⟨events, cfg, event, cfg', run, next, hchecked.1,
      (histories_truthful .sqlite postgresqlLeases (.empty 0) []).1 _ _ _ _ run (hguard cfg event)
        next hchecked.2⟩
  · have hcalls := (histories_truthful .sqlite postgresqlLeases (.empty 0)
      [.start "a" "s" none]).2.mpr
    refine hcalls ?_ _ (List.prefix_refl _)
    intro before call hprefix
    have hlength := hprefix.length_le
    have hbefore : before = [] := by
      rw [List.length_append, List.length_singleton, List.length_singleton] at hlength
      exact List.length_eq_zero_iff.mp (by omega)
    subst hbefore
    rw [List.prefix_cons_iff] at hprefix
    obtain hnil | ⟨rest, hcons, -⟩ := hprefix
    · cases hnil
    · rw [List.nil_append] at hcons
      obtain ⟨rfl, -⟩ := List.cons.inj hcons
      intro record hrecord
      cases hrecord

/-- The checkpoint that the first execution makes before it finds its lease lost. -/
def revival : List HistoryCall :=
  [.start "a" "s" none, .reconcileInterrupted "s" "b", .checkpoint "a" .transform .zero]

theorem late_checkpoint_revives :
    (¬ ∀ (F L : Type) (kind : StoreKind) (leases : Machine LeaseOp (LeaseOp.Res F) L) (l : L)
      (events : List (ExecutionEvent F)) (cfg cfg' : Executions F L) (event : ExecutionEvent F),
      Run (services kind leases) (body kind) (fun _ _ => True) (.start ⟨[], l⟩) events cfg →
      Step (services kind leases) (body kind) cfg event cfg' →
      restarting event = false → StaysTerminal cfg.state.history cfg'.state.history) ∧
    ¬ ∀ calls : List HistoryCall, Agree (StoreKind.sqlite.calls calls)
      (StoreKind.postgresql.calls calls) (StoreKind.bigquery.calls calls) := by
  constructor
  · intro hstays
    obtain ⟨events, cfg, event, cfg', run, next, hchecked⟩ :
        ∃ (events : _) (cfg : Executions LeaseError LeaseTable) (event : _) (cfg' : _),
          Run (services .postgresql postgresqlLeases) (body .postgresql) (fun _ _ => True)
            (.start ⟨[], .empty 0⟩) events cfg ∧
          Step (services .postgresql postgresqlLeases) (body .postgresql) cfg event cfg' ∧
          (decide (statusOf cfg.state.history "a" = some .failed) &&
            decide (statusOf cfg'.state.history "a" = some .running) && !restarting event) = true :=
      record_then (P := fun before event after =>
          decide (statusOf before.history "a" = some .failed) &&
            decide (statusOf after.history "a" = some .running) && !restarting event)
        2 overtaken (.exec 0) (fun _ _ => true) (servicesExec_step .postgresql)
        (fun _ _ _ _ => trivial) (by decide) (by decide +kernel)
    rw [Bool.and_eq_true, Bool.and_eq_true, decide_eq_true_eq, decide_eq_true_eq,
      Bool.not_eq_true'] at hchecked
    obtain ⟨⟨hfailed, hrunning⟩, hrestarts⟩ := hchecked
    have hstays := hstays _ _ _ _ _ _ _ _ _ run next hrestarts
    obtain ⟨ended, hended, hendedRun, hendedStatus⟩ := statusOf_eq_some hfailed
    obtain ⟨later, hlater, hlaterRun, hlaterStatus⟩ := statusOf_eq_some hrunning
    have hterminal := hstays "a" ⟨ended, hended, hendedRun, by rw [hendedStatus]; rfl⟩ later
      hlater hlaterRun
    rw [hlaterStatus] at hterminal
    cases hterminal
  · intro hagree
    have hstatuses := (hagree revival "a").1
    revert hstatuses
    decide

end Runs

end Dander.PipelineHistory
