import Dander.BigqueryLeases

/-!
# Fencing tokens of the BigQuery lease store

An acquire that reads the row back finds the token of its own claim, unless the lease has been
claimed again for the same run. Every claim raises the token, so where no claim comes between the
claim and the read of the same run, no token is returned twice.
-/
namespace Dander.Leases

open Interleaving Concurrency
open BigQueryLeaseStore (Program body)

section Phases

variable {call : BigQueryLeaseStore × Request} {pipelineId runId key other : String}
  {program : Program Reply} {token : ℤ}

def returning (lease : Option LeaseHandle) : Program Reply := pure (.acquired lease)

/-- What a call still has to run. -/
inductive Phase (call : BigQueryLeaseStore × Request) : Program Reply → Prop
  | issued : Phase call (body call)
  | claiming (pipelineId runId : String) : Phase call (call.1.claim pipelineId runId >>= returning)
  | reading (pipelineId runId : String) :
      Phase call (call.1.readToken pipelineId runId >>= returning)
  | ended (reply : Reply) : Phase call (.ret reply)
  | failed (error : LeaseError) : Phase call (.raise error)

/-- The worker has claimed a token of the pipeline that it has not returned. -/
def Holding (pipelineId : String) (program : Program Reply) : Prop :=
  (∃ runId, Reading pipelineId runId program) ∨
    ∃ lease, program = .ret (.acquired (some lease)) ∧ lease.pipelineId = pipelineId

theorem not_holding_call {o : BigqueryOp} {next : o.Res → Program Reply}
    (hne : ∀ runId, o ≠ .select pipelineId runId) : ¬ Holding pipelineId (.call o next) := by
  rintro (⟨runId, next', heq⟩ | ⟨lease, heq, -⟩)
  · rw [Prog.call.injEq] at heq
    exact hne runId heq.1
  · cases heq

theorem not_holding_raise {error : LeaseError} : ¬ Holding pipelineId (.raise error) := by
  rintro (⟨runId, next, heq⟩ | ⟨lease, heq, -⟩) <;> cases heq

theorem not_holding_none : ¬ Holding pipelineId (.ret (.acquired none)) := by
  rintro (⟨runId, next, heq⟩ | ⟨lease, heq, -⟩) <;> cases heq

theorem not_holding_owned {current : Bool} : ¬ Holding pipelineId (.ret (.owned current)) := by
  rintro (⟨runId, next, heq⟩ | ⟨lease, heq, -⟩) <;> cases heq

theorem not_holding_body : ¬ Holding pipelineId (body call) := by
  obtain ⟨store, request⟩ := call
  cases request with
  | acquire key runId => exact not_holding_call (by simp)
  | heartbeat lease => exact not_holding_call (by simp)
  | release lease => exact not_holding_call (by simp)

theorem not_holding_claiming :
    ¬ Holding pipelineId (call.1.claim key runId >>= returning) :=
  not_holding_call (by simp)

theorem reading_iff : Reading pipelineId runId (call.1.readToken key other >>= returning) ↔
    key = pipelineId ∧ other = runId := by
  constructor
  · rintro ⟨next, heq⟩
    obtain ⟨hselect, -⟩ := Prog.call.inj heq
    exact BigqueryOp.select.inj hselect
  · rintro ⟨rfl, rfl⟩
    exact ⟨_, rfl⟩

/-- A handle carries the pipeline and the token it was made for. -/
theorem handle_cases (store : BigQueryLeaseStore) (pipelineId runId : String) (token : ℤ) :
    (∃ error, (store.handle pipelineId runId token >>= returning) = .raise error) ∨
      ∃ lease, (store.handle pipelineId runId token >>= returning) =
        .ret (.acquired (some lease)) ∧ lease.pipelineId = pipelineId ∧
          lease.fencingToken = token := by
  unfold BigQueryLeaseStore.handle
  simp only
  split
  · exact .inl ⟨_, rfl⟩
  · exact .inr ⟨_, rfl, rfl, rfl⟩

end Phases

section Rows

variable {table table' : LeaseTable} {pipelineId key runId : String} {now : ℚ} {lease : LeaseHandle}

/-- The token of the stored row. -/
def currentToken (table : LeaseTable) (pipelineId : String) : ℤ :=
  (table.row pipelineId).elim 0 LeaseRow.fencingToken

/-- The step claims no lease of the pipeline: the token stays, and so does the run that has it,
unless the row is given back. -/
structure Keeps (pipelineId : String) (table table' : LeaseTable) : Prop where
  token : currentToken table' pipelineId = currentToken table pipelineId
  run : ∀ row', table'.row pipelineId = some row' → row'.runId ≠ none →
    ∃ row, table.row pipelineId = some row ∧ row.runId = row'.runId ∧
      row.fencingToken = row'.fencingToken

theorem Keeps.of_versions (h : table'.versions pipelineId = table.versions pipelineId) :
    Keeps pipelineId table table' := by
  have hrow : table'.row pipelineId = table.row pipelineId := congrArg List.head? h
  refine ⟨?_, ?_⟩
  · unfold currentToken
    rw [hrow]
  · intro row hsome _
    rw [hrow] at hsome
    exact ⟨row, hsome, rfl, rfl⟩

theorem row_write (table : LeaseTable) (key : String) (row : LeaseRow) :
    (table.write key row).row key = some row := by
  simp [LeaseTable.row]

theorem Keeps.write_other (hne : pipelineId ≠ key) (row : LeaseRow) :
    Keeps pipelineId table (table.write key row) := by
  apply Keeps.of_versions
  simp [Function.update_of_ne hne]

/-- A row is rewritten under its token, for the same run or for none. -/
theorem Keeps.rewrite {row row' : LeaseRow} (hrow : table.row key = some row)
    (htoken : row'.fencingToken = row.fencingToken)
    (hrun : row'.runId = none ∨ row'.runId = row.runId) :
    Keeps pipelineId table (table.write key row') := by
  by_cases hkey : pipelineId = key
  · subst hkey
    have hnew := row_write table pipelineId row'
    refine ⟨?_, ?_⟩
    · simp [currentToken, hnew, hrow, htoken]
    · intro new hsome hheld
      rw [hnew, Option.some.injEq] at hsome
      subst hsome
      exact ⟨row, hrow, (hrun.resolve_left hheld).symm, htoken.symm⟩
  · exact Keeps.write_other hkey row'

theorem keeps_insertVacant : Keeps pipelineId table (insertVacant key table) := by
  unfold insertVacant
  cases hrow : table.row key with
  | some row => exact .of_versions rfl
  | none =>
    by_cases hkey : pipelineId = key
    · subst hkey
      have hnew := row_write table pipelineId vacant
      refine ⟨?_, ?_⟩
      · simp only [currentToken, hnew, hrow]
        rfl
      · intro new hsome hheld
        simp only [hnew, Option.some.injEq] at hsome
        subst hsome
        exact absurd rfl hheld
    · exact .write_other hkey vacant

theorem keeps_heartbeat {leaseSeconds : ℕ} :
    Keeps pipelineId table (sqliteHeartbeat leaseSeconds lease now table).2 := by
  unfold sqliteHeartbeat
  cases hrow : table.row lease.pipelineId with
  | none => exact .of_versions rfl
  | some row =>
    simp only
    split
    · exact .rewrite hrow rfl (.inr rfl)
    · exact .of_versions rfl

theorem keeps_release : Keeps pipelineId table (sqliteRelease lease now table).2 := by
  unfold sqliteRelease
  cases hrow : table.row lease.pipelineId with
  | none => exact .of_versions rfl
  | some row =>
    simp only
    split
    · exact .rewrite hrow rfl (.inl rfl)
    · exact .of_versions rfl

/-- A claim affects one row or leaves the table as it is. -/
theorem bigqueryClaim_cases (leaseSeconds : ℕ) (key runId : String) (now : ℚ) (table : LeaseTable) :
    (bigqueryClaim leaseSeconds key runId now table).2 = table ∧
        (bigqueryClaim leaseSeconds key runId now table).1 ≠ .ok 1 ∨
      ∃ row, table.row key = some row ∧
        bigqueryClaim leaseSeconds key runId now table = (.ok 1, table.write key
          ⟨some runId, row.fencingToken + 1, some now, now + leaseSeconds⟩) := by
  unfold bigqueryClaim
  cases hrow : table.row key with
  | none => exact .inl ⟨rfl, by simp⟩
  | some row =>
    simp only
    split
    · split
      · exact .inl ⟨rfl, by simp⟩
      · exact .inr ⟨row, rfl, rfl⟩
    · exact .inl ⟨rfl, by simp⟩

theorem bigquerySelect_cases (key runId : String) (now : ℚ) (table : LeaseTable) :
    bigquerySelect key runId now table = [] ∨ ∃ row, table.row key = some row ∧
      row.runId = some runId ∧ bigquerySelect key runId now table = [row.fencingToken] := by
  unfold bigquerySelect
  cases hrow : table.row key with
  | none => exact .inl rfl
  | some row =>
    simp only
    split
    next howned =>
      rw [Bool.and_eq_true, decide_eq_true_eq] at howned
      exact .inr ⟨row, rfl, howned.1, rfl⟩
    next => exact .inl rfl

end Rows

section Invariant

/-- Every worker has the token of its own claim: the ghost `claimed` tells which. -/
structure Claimed (pipelineId : String) (cfg : Calls) (returned : List ℤ) (claimed : ℕ → ℤ) :
    Prop where
  phase : ∀ i call program, cfg.pool i = some (call, program) → Phase call program
  reading : ∀ i call program runId, cfg.pool i = some (call, program) →
    Reading pipelineId runId program → ∀ row, cfg.state.row pipelineId = some row →
      row.runId = some runId → row.fencingToken = claimed i
  acquired : ∀ i call lease, cfg.pool i = some (call, .ret (.acquired (some lease))) →
    lease.pipelineId = pipelineId → lease.fencingToken = claimed i
  below : ∀ i call program, cfg.pool i = some (call, program) → Holding pipelineId program →
    claimed i ≤ currentToken cfg.state pipelineId
  apart : ∀ i j call other program program', cfg.pool i = some (call, program) →
    cfg.pool j = some (other, program') → Holding pipelineId program →
    Holding pipelineId program' → claimed i = claimed j → i = j
  spent : ∀ token ∈ returned, token ≤ currentToken cfg.state pipelineId ∧
    ∀ i call program, cfg.pool i = some (call, program) → Holding pipelineId program →
      claimed i ≠ token
  nodup : returned.Nodup

variable {pipelineId : String} {cfg : Calls} {returned : List ℤ} {claimed : ℕ → ℤ} {i : ℕ}
  {table : LeaseTable} {call : BigQueryLeaseStore × Request} {program : Program Reply}

theorem claimed_start (clock : ℚ) :
    Claimed pipelineId (Config.start (.empty clock)) [] (fun _ => 0) := by
  constructor <;> simp [Config.start]

theorem live_cases {pool : ℕ → Option ((BigQueryLeaseStore × Request) × Program Reply)} {j : ℕ}
    {entry : (BigQueryLeaseStore × Request) × Program Reply} {other}
    (h : Function.update pool i (some entry) j = some other) :
    (j = i ∧ other = entry) ∨ (j ≠ i ∧ pool j = some other) := by
  by_cases hji : j = i
  · subst hji
    rw [Function.update_self, Option.some.injEq] at h
    exact .inl ⟨rfl, h.symm⟩
  · rw [Function.update_of_ne hji] at h
    exact .inr ⟨hji, h⟩

/-- A worker takes a step that claims no lease of the pipeline. -/
theorem Claimed.keep (h : Claimed pipelineId cfg returned claimed)
    (hkeep : Keeps pipelineId cfg.state table) (hphase : Phase call program)
    (hreading : ∀ runId, ¬ Reading pipelineId runId program)
    (hholding : ∀ lease, program = .ret (.acquired (some lease)) → lease.pipelineId = pipelineId →
      lease.fencingToken = claimed i ∧
        ∃ before, cfg.pool i = some (call, before) ∧ Holding pipelineId before) :
    Claimed pipelineId ⟨table, Function.update cfg.pool i (some (call, program))⟩ returned
      claimed := by
  have hbefore : ∀ j other program', Function.update cfg.pool i (some (call, program)) j =
        some (other, program') → Holding pipelineId program' →
      ∃ before, cfg.pool j = some (other, before) ∧ Holding pipelineId before := by
    intro j other program' hj hholds
    rcases live_cases hj with ⟨rfl, heq⟩ | ⟨-, hlive⟩
    · obtain ⟨rfl, rfl⟩ := Prod.mk.inj heq
      rcases hholds with ⟨runId, hread⟩ | ⟨lease, hret, hpipeline⟩
      · exact absurd hread (hreading runId)
      · exact (hholding lease hret hpipeline).2
    · exact ⟨program', hlive, hholds⟩
  refine ⟨?_, ?_, ?_, ?_, ?_, ?_, h.nodup⟩
  · intro j other program' hj
    rcases live_cases hj with ⟨-, heq⟩ | ⟨-, hlive⟩
    · obtain ⟨rfl, rfl⟩ := Prod.mk.inj heq
      exact hphase
    · exact h.phase j other program' hlive
  · intro j other program' runId hj hread row' hrow' hrun
    rcases live_cases hj with ⟨-, heq⟩ | ⟨-, hlive⟩
    · obtain ⟨rfl, rfl⟩ := Prod.mk.inj heq
      exact absurd hread (hreading runId)
    · obtain ⟨row, hrow, hsame, htoken⟩ := hkeep.run row' hrow' (by simp [hrun])
      rw [← htoken]
      exact h.reading j other program' runId hlive hread row hrow (hsame.trans hrun)
  · intro j other lease hj hpipeline
    rcases live_cases hj with ⟨rfl, heq⟩ | ⟨-, hlive⟩
    · obtain ⟨rfl, rfl⟩ := Prod.mk.inj heq
      exact (hholding lease rfl hpipeline).1
    · exact h.acquired j other lease hlive hpipeline
  · intro j other program' hj hholds
    obtain ⟨before, hlive, hheld⟩ := hbefore j other program' hj hholds
    have hle := h.below j other before hlive hheld
    rwa [← hkeep.token] at hle
  · intro j k other other' program' program'' hj hk hholds hholds' heq
    obtain ⟨before, hlive, hheld⟩ := hbefore j other program' hj hholds
    obtain ⟨before', hlive', hheld'⟩ := hbefore k other' program'' hk hholds'
    exact h.apart j k other other' before before' hlive hlive' hheld hheld' heq
  · intro token htoken
    obtain ⟨hle, hnone⟩ := h.spent token htoken
    refine ⟨?_, ?_⟩
    · rwa [← hkeep.token] at hle
    · intro j other program' hj hholds
      obtain ⟨before, hlive, hheld⟩ := hbefore j other program' hj hholds
      exact hnone j other before hlive hheld

/-- A worker claims the pipeline's lease while no other one reads for the same run. -/
theorem Claimed.claim {runId : String} {row row' : LeaseRow}
    (h : Claimed pipelineId cfg returned claimed) (hrow : cfg.state.row pipelineId = some row)
    (hnew : table.row pipelineId = some row') (htoken : row'.fencingToken = row.fencingToken + 1)
    (hrun : row'.runId = some runId) (hphase : Phase call program)
    (hreading : Reading pipelineId runId program)
    (halone : ∀ j other program', j ≠ i → cfg.pool j = some (other, program') →
      ¬ Reading pipelineId runId program') :
    Claimed pipelineId ⟨table, Function.update cfg.pool i (some (call, program))⟩ returned
      (Function.update claimed i row'.fencingToken) := by
  have hcurrent : currentToken cfg.state pipelineId = row.fencingToken := by
    simp [currentToken, hrow]
  have hcurrent' : currentToken table pipelineId = row'.fencingToken := by
    simp [currentToken, hnew]
  have hbelow : ∀ j other program', cfg.pool j = some (other, program') →
      Holding pipelineId program' → claimed j < row'.fencingToken := by
    intro j other program' hj hholds
    have := h.below j other program' hj hholds
    omega
  have hnotReturned : ∀ lease, program ≠ .ret (.acquired (some lease)) := by
    rintro lease rfl
    obtain ⟨next, heq⟩ := hreading
    cases heq
  refine ⟨?_, ?_, ?_, ?_, ?_, ?_, h.nodup⟩
  · intro j other program' hj
    rcases live_cases hj with ⟨-, heq⟩ | ⟨-, hlive⟩
    · obtain ⟨rfl, rfl⟩ := Prod.mk.inj heq
      exact hphase
    · exact h.phase j other program' hlive
  · intro j other program' runId' hj hread stored hstored hrun'
    rw [hnew, Option.some.injEq] at hstored
    subst hstored
    rcases live_cases hj with ⟨rfl, -⟩ | ⟨hji, hlive⟩
    · rw [Function.update_self]
    · rw [hrun, Option.some.injEq] at hrun'
      subst hrun'
      exact absurd hread (halone j other program' hji hlive)
  · intro j other lease hj hpipeline
    rcases live_cases hj with ⟨-, heq⟩ | ⟨hji, hlive⟩
    · obtain ⟨-, hret⟩ := Prod.mk.inj heq
      exact absurd hret.symm (hnotReturned lease)
    · rw [Function.update_of_ne hji]
      exact h.acquired j other lease hlive hpipeline
  · intro j other program' hj hholds
    rcases live_cases hj with ⟨rfl, -⟩ | ⟨hji, hlive⟩
    · rw [Function.update_self, hcurrent']
    · rw [Function.update_of_ne hji, hcurrent']
      exact (hbelow j other program' hlive hholds).le
  · intro j k other other' program' program'' hj hk hholds hholds' heq
    rcases live_cases hj with ⟨rfl, -⟩ | ⟨hji, hlive⟩
    · rcases live_cases hk with ⟨rfl, -⟩ | ⟨hki, hlive'⟩
      · rfl
      · have hlt := hbelow k other' program'' hlive' hholds'
        rw [Function.update_self, Function.update_of_ne hki] at heq
        omega
    · rcases live_cases hk with ⟨rfl, -⟩ | ⟨hki, hlive'⟩
      · have hlt := hbelow j other program' hlive hholds
        rw [Function.update_self, Function.update_of_ne hji] at heq
        omega
      · rw [Function.update_of_ne hji, Function.update_of_ne hki] at heq
        exact h.apart j k other other' program' program'' hlive hlive' hholds hholds' heq
  · intro token hmem
    obtain ⟨hle, hnone⟩ := h.spent token hmem
    refine ⟨?_, ?_⟩
    · show token ≤ currentToken table pipelineId
      omega
    intro j other program' hj hholds
    rcases live_cases hj with ⟨rfl, -⟩ | ⟨hji, hlive⟩
    · rw [Function.update_self]
      omega
    · rw [Function.update_of_ne hji]
      exact hnone j other program' hlive hholds

/-- A worker leaves the pool. -/
theorem Claimed.leave (h : Claimed pipelineId cfg returned claimed) :
    Claimed pipelineId ⟨cfg.state, Function.update cfg.pool i none⟩ returned claimed := by
  refine ⟨?_, ?_, ?_, ?_, ?_, ?_, h.nodup⟩
  · intro j other program' hj
    exact h.phase j other program' (live_of_update_none hj).2
  · intro j other program' runId hj
    exact h.reading j other program' runId (live_of_update_none hj).2
  · intro j other lease hj
    exact h.acquired j other lease (live_of_update_none hj).2
  · intro j other program' hj
    exact h.below j other program' (live_of_update_none hj).2
  · intro j k other other' program' program'' hj hk
    exact h.apart j k other other' program' program'' (live_of_update_none hj).2
      (live_of_update_none hk).2
  · intro token hmem
    obtain ⟨hle, hnone⟩ := h.spent token hmem
    refine ⟨hle, ?_⟩
    intro j other program' hj
    exact hnone j other program' (live_of_update_none hj).2

/-- A worker returns the token it has claimed. -/
theorem Claimed.report {lease : LeaseHandle} (h : Claimed pipelineId cfg returned claimed)
    (hlive : cfg.pool i = some (call, .ret (.acquired (some lease))))
    (hpipeline : lease.pipelineId = pipelineId) :
    Claimed pipelineId ⟨cfg.state, Function.update cfg.pool i none⟩
      (returned ++ [lease.fencingToken]) claimed := by
  have hholds : Holding pipelineId (.ret (.acquired (some lease))) := .inr ⟨lease, rfl, hpipeline⟩
  have htoken := h.acquired i call lease hlive hpipeline
  have hleft : Claimed pipelineId ⟨cfg.state, Function.update cfg.pool i none⟩ returned claimed :=
    h.leave
  refine ⟨hleft.phase, hleft.reading, hleft.acquired, hleft.below, hleft.apart, ?_, ?_⟩
  · intro token hmem
    rcases List.mem_append.mp hmem with hold | hnew
    · exact hleft.spent token hold
    · rw [List.mem_singleton] at hnew
      subst hnew
      refine ⟨?_, ?_⟩
      · rw [htoken]
        exact h.below i call _ hlive hholds
      · intro j other program' hj hholds' heq
        obtain ⟨hji, hlive'⟩ := live_of_update_none hj
        rw [htoken] at heq
        exact hji (h.apart j i other call program' _ hlive' hlive hholds' hholds heq)
  · refine List.nodup_append.mpr ⟨h.nodup, by simp, ?_⟩
    intro token hold new hnew heq
    rw [List.mem_singleton] at hnew
    subst hnew
    have hnone := (h.spent token hold).2 i call _ hlive hholds
    rw [← htoken] at hnone
    exact hnone heq.symm

end Invariant

section Steps

variable {pipelineId : String} {cfg cfg' : Calls} {returned : List ℤ} {claimed : ℕ → ℤ} {i : ℕ}
  {table : LeaseTable} {call : BigQueryLeaseStore × Request}

theorem keeps_showing {now : ℚ} {table' : LeaseTable}
    (h : Keeps pipelineId (table.showing now) table') : Keeps pipelineId table table' :=
  ⟨h.token, h.run⟩

/-- The step from the statements of a call that is not an acquire's claim or read. -/
theorem Claimed.perform_plain {o : BigqueryOp} {r : o.Res} {program : Program Reply} {now : ℚ}
    (h : Claimed pipelineId cfg returned claimed)
    (hexec : bigqueryExec now o (cfg.state.showing now) = (r, table))
    (hplain : ∀ table, Keeps pipelineId table (bigqueryExec now o table).2)
    (hphase : Phase call program) (hnot : ¬ Holding pipelineId program) :
    Claimed pipelineId ⟨table, Function.update cfg.pool i (some (call, program))⟩ returned
      claimed := by
  have hkeep : Keeps pipelineId cfg.state table := by
    have hshowing := hplain (cfg.state.showing now)
    rw [hexec] at hshowing
    exact keeps_showing hshowing
  refine h.keep hkeep hphase ?_ ?_
  · exact fun runId hread => hnot (.inl ⟨runId, hread⟩)
  · exact fun lease hret hpipeline => absurd (.inr ⟨lease, hret, hpipeline⟩) hnot

theorem Claimed.perform_claim {key runId : String} {now : ℚ} {r : Except LeaseError ℕ}
    (h : Claimed pipelineId cfg returned claimed)
    (hexec : bigqueryClaim call.1.leaseSeconds key runId now (cfg.state.showing now) = (r, table))
    (halone : ClaimsAlone cfg (.performed i call (.claim call.1.leaseSeconds key runId) r)) :
    ∃ claimed', Claimed pipelineId ⟨table, Function.update cfg.pool i (some (call,
      match r with
      | .error error => .raise error
      | .ok affected =>
        (if affected ≠ 1 then pure none else call.1.readToken key runId) >>= returning))⟩
      returned claimed' := by
  rcases bigqueryClaim_cases call.1.leaseSeconds key runId now (cfg.state.showing now) with
    ⟨hsame, hfailed⟩ | ⟨row, hrow, hclaimed⟩
  · rw [hexec] at hsame hfailed
    simp only at hsame hfailed
    subst hsame
    have hkeep : Keeps pipelineId cfg.state (cfg.state.showing now) := .of_versions rfl
    refine ⟨claimed, ?_⟩
    cases r with
    | error error =>
      refine h.keep hkeep (.failed error) ?_ ?_
      · exact fun runId hread => not_holding_raise (.inl ⟨runId, hread⟩)
      · rintro lease ⟨⟩
    | ok affected =>
      have hne : affected ≠ 1 := fun heq => hfailed (by rw [heq])
      simp only [ne_eq, hne, not_false_eq_true, if_true]
      refine h.keep hkeep (.ended (.acquired none)) ?_ ?_
      · exact fun runId hread => not_holding_none (.inl ⟨runId, hread⟩)
      · rintro lease ⟨⟩
  · rw [hexec] at hclaimed
    obtain ⟨rfl, rfl⟩ := Prod.mk.inj hclaimed
    by_cases hkey : key = pipelineId
    · subst hkey
      refine ⟨_, h.claim hrow (row_write _ key _) rfl rfl (.reading key runId)
        (reading_iff.mpr ⟨rfl, rfl⟩) ?_⟩
      intro j other program hji hlive
      exact halone i call call.1.leaseSeconds key runId rfl j other program hji hlive
    · refine ⟨claimed, h.keep ?_ (.reading key runId) ?_ ?_⟩
      · exact keeps_showing (.write_other (Ne.symm hkey) _)
      · exact fun runId' hread => hkey (reading_iff.mp hread).1
      · rintro lease ⟨⟩

theorem Claimed.perform_read {key runId : String} {now : ℚ} {r : List ℤ}
    (h : Claimed pipelineId cfg returned claimed)
    (hlive : cfg.pool i = some (call, call.1.readToken key runId >>= returning))
    (hexec : bigquerySelect key runId now (cfg.state.showing now) = r) :
    Claimed pipelineId ⟨cfg.state.showing now, Function.update cfg.pool i (some (call,
      (match r with
        | [token] => if token ≤ 0 then pure none else call.1.handle key runId token
        | _ => pure none) >>= returning))⟩ returned claimed := by
  have hkeep : Keeps pipelineId cfg.state (cfg.state.showing now) := .of_versions rfl
  have hnone : Claimed pipelineId ⟨cfg.state.showing now, Function.update cfg.pool i (some (call,
      .ret (.acquired none)))⟩ returned claimed := by
    refine h.keep hkeep (.ended (.acquired none)) ?_ ?_
    · exact fun runId hread => not_holding_none (.inl ⟨runId, hread⟩)
    · rintro lease ⟨⟩
  rcases bigquerySelect_cases key runId now (cfg.state.showing now) with
    hempty | ⟨row, hrow, hrun, hfound⟩
  · rw [← hexec, hempty]
    exact hnone
  · rw [← hexec, hfound]
    by_cases hpositive : row.fencingToken ≤ 0
    · simp only [hpositive, if_true]
      exact hnone
    · simp only [hpositive, if_false]
      rcases handle_cases call.1 key runId row.fencingToken with
        ⟨error, hraise⟩ | ⟨lease, hret, hpipeline, htoken⟩
      · rw [hraise]
        refine h.keep hkeep (.failed error) ?_ ?_
        · exact fun runId hread => not_holding_raise (.inl ⟨runId, hread⟩)
        · rintro lease ⟨⟩
      · rw [hret]
        refine h.keep hkeep (.ended (.acquired (some lease))) ?_ ?_
        · rintro runId' ⟨next, heq⟩
          cases heq
        · rintro lease' heq hpipeline'
          have hlease : lease = lease' := by
            simpa using heq
          subst hlease
          have hkey : key = pipelineId := hpipeline.symm.trans hpipeline'
          have hreading : Reading pipelineId runId (call.1.readToken key runId >>= returning) :=
            reading_iff.mpr ⟨hkey, rfl⟩
          subst hkey
          refine ⟨?_, _, hlive, .inl ⟨runId, hreading⟩⟩
          rw [htoken]
          exact h.reading i call _ runId hlive hreading row hrow hrun

/-- One statement of any worker. -/
theorem Claimed.perform {o : BigqueryOp} {r : o.Res} {next : o.Res → Program Reply}
    (h : Claimed pipelineId cfg returned claimed) (hlive : cfg.pool i = some (call, .call o next))
    (hdone : bigquery.step o cfg.state r table)
    (halone : ClaimsAlone cfg (.performed i call o r)) :
    ∃ claimed', Claimed pipelineId ⟨table, Function.update cfg.pool i (some (call, next r))⟩
      returned claimed' := by
  obtain ⟨now, -, hexec⟩ := hdone
  have hphase := h.phase i call _ hlive
  generalize hprogram : Prog.call o next = program at hphase
  cases hphase with
  | issued =>
    obtain ⟨store, request⟩ := call
    cases request with
    | acquire key runId =>
      cases hprogram
      exact ⟨claimed, h.perform_plain hexec (fun _ => keeps_insertVacant) (.claiming key runId)
        not_holding_claiming⟩
    | heartbeat lease =>
      cases hprogram
      exact ⟨claimed, h.perform_plain hexec (fun _ => keeps_heartbeat) (.ended (.owned r))
        not_holding_owned⟩
    | release lease =>
      cases hprogram
      exact ⟨claimed, h.perform_plain hexec (fun _ => keeps_release) (.ended (.owned r))
        not_holding_owned⟩
  | claiming key runId =>
    cases hprogram
    obtain ⟨claimed', hclaimed⟩ := h.perform_claim hexec halone
    refine ⟨claimed', ?_⟩
    cases r <;> exact hclaimed
  | reading key runId =>
    cases hprogram
    obtain ⟨hselect, rfl⟩ := Prod.mk.inj hexec
    have hread := h.perform_read hlive hselect
    refine ⟨claimed, ?_⟩
    rcases r with _ | ⟨token, _ | ⟨second, rest⟩⟩ <;> exact hread
  | ended reply => cases hprogram
  | failed error => cases hprogram

theorem Claimed.step {event : CallEvent} (h : Claimed pipelineId cfg returned claimed)
    (halone : ClaimsAlone cfg event) (next : Step bigquery body cfg event cfg') :
    ∃ claimed', Claimed pipelineId cfg' (returned ++ (returnedToken pipelineId event).toList)
      claimed' := by
  cases next with
  | issue i call free =>
    refine ⟨claimed, ?_⟩
    simp only [returnedToken, Option.toList_none, List.append_nil]
    refine h.keep (.of_versions rfl) .issued ?_ ?_
    · exact fun runId hread => not_holding_body (.inl ⟨runId, hread⟩)
    · exact fun lease hret hpipeline => absurd (.inr ⟨lease, hret, hpipeline⟩) not_holding_body
  | perform i call o next r table hlive hdone =>
    simp only [returnedToken, Option.toList_none, List.append_nil]
    exact h.perform hlive hdone halone
  | crash i =>
    refine ⟨claimed, ?_⟩
    simp only [returnedToken, Option.toList_none, List.append_nil]
    exact h.leave
  | finish i call program out hlive hended =>
    refine ⟨claimed, ?_⟩
    by_cases hreturned : ∃ lease, program = .ret (.acquired (some lease)) ∧
        lease.pipelineId = pipelineId
    · obtain ⟨lease, rfl, hpipeline⟩ := hreturned
      obtain rfl : Except.ok (.acquired (some lease)) = out := by
        simpa [Prog.outcome] using hended
      simp only [returnedToken, hpipeline, if_true, Option.toList_some]
      exact h.report hlive hpipeline
    · have hnone : returnedToken pipelineId (.finished i call out : CallEvent) = none := by
        unfold returnedToken
        split
        next lease heq =>
          rw [if_neg]
          intro hpipeline
          apply hreturned
          obtain ⟨-, -, rfl⟩ := Event.finished.inj heq
          refine ⟨lease, ?_, hpipeline⟩
          cases program with
          | ret reply =>
            simp only [Prog.outcome, Option.some.injEq, Except.ok.injEq] at hended
            rw [hended]
          | raise error => simp [Prog.outcome] at hended
          | call o next => simp [Prog.outcome] at hended
        next => rfl
      rw [hnone, Option.toList_none, List.append_nil]
      exact h.leave

end Steps

section Runs

variable {events : List CallEvent} {cfg : Calls}

theorem run_claimed {clock : ℚ} (pipelineId : String)
    (run : Run bigquery body ClaimsAlone (.start (.empty clock)) events cfg) :
    ∃ claimed, Claimed pipelineId cfg (events.filterMap (returnedToken pipelineId)) claimed := by
  induction run with
  | refl => exact ⟨_, claimed_start clock⟩
  | @snoc events cfg event cfg' before halone next ih =>
    obtain ⟨claimed, hclaimed⟩ := ih
    obtain ⟨claimed', hclaimed'⟩ := hclaimed.step halone next
    refine ⟨claimed', ?_⟩
    have hlast : [event].filterMap (returnedToken pipelineId) =
        (returnedToken pipelineId event).toList := by
      cases hevent : returnedToken pipelineId event <;> simp [hevent]
    rw [List.filterMap_append, hlast]
    exact hclaimed'

/-- In every interleaving of calls, with any crashes and clocks, in which no lease is claimed for
a run while another acquire of that run stands between its claim and its read: no two successful
acquires of a pipeline return the same fencing token. -/
theorem bigquery_tokens_distinct {clock : ℚ} (pipelineId : String)
    (run : Run bigquery body ClaimsAlone (.start (.empty clock)) events cfg) :
    (events.filterMap (returnedToken pipelineId)).Nodup := by
  obtain ⟨claimed, hclaimed⟩ := run_claimed pipelineId run
  exact hclaimed.nodup

/-- A clock that moves on by ten seconds at every statement. -/
def bigqueryTicking (o : BigqueryOp) (table : LeaseTable) : Option (o.Res × LeaseTable) :=
  some (bigqueryExec (table.clock + 10) o (table.showing (table.clock + 10)))

theorem bigqueryTicking_step (o : BigqueryOp) (table : LeaseTable) (r : o.Res)
    (table' : LeaseTable) (h : bigqueryTicking o table = some (r, table')) :
    bigquery.step o table r table' :=
  ⟨table.clock + 10, by simp, Option.some.inj h⟩

/-- The claim of the first two workers, checked for the other of them. -/
def claimsAlone (cfg : Calls) (event : CallEvent) : Bool :=
  match event with
  | .performed i _ (.claim _ pipelineId runId) (.ok 1) =>
    (List.range 2).all fun j => decide (j = i) ||
      match cfg.pool j with
      | some (_, .call (.select key other) _) => !decide (key = pipelineId ∧ other = runId)
      | _ => true
  | _ => true

theorem claimsAlone_of_below {cfg : Calls} {event : CallEvent}
    (hfree : ∀ j, 2 ≤ j → cfg.pool j = none) (h : claimsAlone cfg event = true) :
    ClaimsAlone cfg event := by
  rintro i call leaseSeconds pipelineId runId rfl j other program hji hlive ⟨next, rfl⟩
  have hbelow : j < 2 := by
    by_contra hge
    rw [hfree j (by omega)] at hlive
    cases hlive
  simp only [claimsAlone, List.all_eq_true, List.mem_range] at h
  have hj := h j hbelow
  rw [hlive] at hj
  simp [hji] at hj

theorem thirty_seconds_legal : 30 ≤ 30 ∧ 30 ≤ 3600 := by decide

def warehouseLease : BigQueryLeaseStore :=
  ⟨30, fun _ => "p.d.t", "bigquery:p:d", 1, thirty_seconds_legal⟩

def retried : BigQueryLeaseStore × Request := (warehouseLease, .acquire "p" "r")

/-- A run acquires the lease, and after its expiry a retry of the run acquires it again. -/
theorem bigquery_tokens_distinct_retry : ∃ events cfg,
    Run bigquery body ClaimsAlone (.start (.empty 0)) events cfg ∧
      events.filterMap (returnedToken "p") = [1, 2] ∧
      (events.filterMap (returnedToken "p")).Nodup := by
  obtain ⟨events, cfg, run, htokens⟩ : ∃ events cfg,
      Run bigquery body ClaimsAlone (.start (.empty 0)) events cfg ∧
        events.filterMap (returnedToken "p") = [1, 2] :=
    record_reaches 2
      [.issue 0 retried, .exec 0, .exec 0, .exec 0, .finish 0, .issue 1 retried, .exec 1, .exec 1,
        .exec 1, .finish 1]
      claimsAlone bigqueryTicking_step (fun _ _ => claimsAlone_of_below) (by decide)
      (by decide +kernel)
  exact ⟨events, cfg, run, htokens, bigquery_tokens_distinct "p" run⟩

/-- Two workers acquire for the same run. The lease of the first expires before it reads it, and
both read the token of the second. -/
theorem retried_run_shares_token : ¬ ∀ events cfg,
    Run bigquery body (fun _ _ => True) (.start (.empty 0)) events cfg →
      (events.filterMap (returnedToken "p")).Nodup := by
  intro hall
  obtain ⟨events, cfg, run, htokens⟩ : ∃ events cfg,
      Run bigquery body (fun _ _ => True) (.start (.empty 0)) events cfg ∧
        events.filterMap (returnedToken "p") = [2, 2] :=
    record_reaches 2
      [.issue 0 retried, .issue 1 retried, .exec 0, .exec 0, .exec 1, .crash 1, .issue 1 retried,
        .exec 1, .exec 1, .exec 0, .exec 1, .finish 0, .finish 1]
      (fun _ _ => true) bigqueryTicking_step (fun _ _ _ _ => trivial) (by decide)
      (by decide +kernel)
  have hnodup := hall events cfg run
  rw [htokens] at hnodup
  revert hnodup
  decide

end Runs

end Dander.Leases
