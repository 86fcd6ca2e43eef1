import Dander.Leases

/-!
# Fencing tokens of the lease stores

Every transaction of the two stores is a change of a fenced lease history, because
the clock a call compares with was read no later than the transaction runs. Tokens
therefore strictly increase, and a run whose lease was taken over had lost it before.
-/
namespace Dander.Leases

open Interleaving

def LeaseRow.version (row : LeaseRow) : FencedLease.Version String ℚ :=
  ⟨row.runId, row.fencingToken, row.leaseExpiresAt⟩

def LeaseTable.history (table : LeaseTable) (pipelineId : String) :
    List (FencedLease.Version String ℚ) :=
  (table.versions pipelineId).map LeaseRow.version

/-- The run has a lease that was not given back and does not expire before the moment. -/
def LeaseTable.Holds (table : LeaseTable) (pipelineId runId : String) (moment : ℚ) : Prop :=
  FencedLease.Holds (table.history pipelineId) runId moment

section Guarantees

variable {Op : Type} {Res : Op → Type} {C : Type}

/-- What holds after a run of a lease store, where `granted` reads the token a successful
acquire returned and `presented` the lease a heartbeat or release was called with. -/
structure Guarantees (m : Machine Op Res LeaseTable) (body : C → Prog Op Res LeaseError Reply)
    (granted : String → Sigma Res → Option ℤ) (presented : Op → Option LeaseHandle)
    (events : List (Event Op Res LeaseError Reply C))
    (cfg : Config Op Res LeaseError Reply C LeaseTable) : Prop where
  increasing : ∀ pipelineId,
    ((events.filterMap Event.operation).filterMap (granted pipelineId)).Pairwise (· < ·)
  exclusive : ∀ pipelineId moment, cfg.state.clock ≤ moment → ∀ runId other,
    cfg.state.Holds pipelineId runId moment → cfg.state.Holds pipelineId other moment →
    runId = other
  exact : ∀ i c o r cfg' lease pipelineId, presented o = some lease →
    Step m body cfg (.performed i c o r) cfg' →
    cfg'.state.versions pipelineId ≠ cfg.state.versions pipelineId →
    pipelineId = lease.pipelineId ∧ ∃ row, cfg.state.row pipelineId = some row ∧
      row.runId = some lease.runId ∧ row.fencingToken = lease.fencingToken

/-- The histories of all rows with the tokens granted for each. -/
def AllFenced (table : LeaseTable) (tokens : String → List ℤ) : Prop :=
  ∀ pipelineId, FencedLease.Fenced table.clock (table.history pipelineId) (tokens pipelineId)

variable {table : LeaseTable} {tokens tokens' : String → List ℤ}

theorem AllFenced.empty (clock : ℚ) : AllFenced (.empty clock) (fun _ => []) :=
  fun _ => FencedLease.Fenced.empty clock

theorem AllFenced.showing (h : AllFenced table tokens) {clock : ℚ} (hle : table.clock ≤ clock) :
    AllFenced (table.showing clock) tokens :=
  fun pipelineId => (h pipelineId).later hle

/-- One row gets a new version. -/
theorem AllFenced.write (h : AllFenced table tokens) {pipelineId : String} {row : LeaseRow}
    {token : Option ℤ}
    (hchange : FencedLease.Change table.clock (table.history pipelineId) token
      (row.version :: table.history pipelineId))
    (htokens : ∀ key, tokens' key =
      if key = pipelineId then tokens pipelineId ++ token.toList else tokens key) :
    AllFenced (table.write pipelineId row) tokens' := by
  intro key
  by_cases hkey : key = pipelineId
  · subst hkey
    have hfenced := (h key).change hchange
    simpa [htokens, LeaseTable.history] using hfenced
  · have hfenced := h key
    simpa [htokens, hkey, LeaseTable.history, Function.update_of_ne hkey] using hfenced

/-- What is known of the stored row of a fenced history. -/
theorem history_of_row {pipelineId : String} {row : LeaseRow}
    (hrow : table.row pipelineId = some row) :
    ∃ older, table.history pipelineId = row.version :: older := by
  unfold LeaseTable.row at hrow
  unfold LeaseTable.history
  cases hversions : table.versions pipelineId with
  | nil => simp [hversions] at hrow
  | cons newest older =>
    simp only [hversions, List.head?_cons, Option.some.injEq] at hrow
    subst hrow
    exact ⟨older.map LeaseRow.version, rfl⟩

theorem history_of_no_row {pipelineId : String} (hrow : table.row pipelineId = none) :
    table.history pipelineId = [] := by
  unfold LeaseTable.row at hrow
  unfold LeaseTable.history
  simpa using hrow

/-- A row is renewed or given back under its own token. -/
theorem AllFenced.rewrite (h : AllFenced table tokens) {pipelineId : String}
    {row row' : LeaseRow} (hrow : table.row pipelineId = some row)
    (hsame : row'.fencingToken = row.fencingToken) :
    AllFenced (table.write pipelineId row') tokens := by
  obtain ⟨older, holder⟩ := history_of_row hrow
  have hchange : FencedLease.Change table.clock (table.history pipelineId) none
      (row'.version :: table.history pipelineId) := by
    rw [holder]
    exact .rewrite row'.version row.version older hsame
  refine h.write hchange ?_
  intro key
  by_cases hkey : key = pipelineId <;> simp [hkey]

/-- The next token is granted when the row has expired. -/
theorem AllFenced.grant (h : AllFenced table tokens) {pipelineId : String}
    {row row' : LeaseRow} (hrow : table.row pipelineId = some row)
    (hexpired : row.leaseExpiresAt ≤ table.clock)
    (hnext : row'.fencingToken = row.fencingToken + 1)
    (htokens : ∀ key, tokens' key =
      if key = pipelineId then tokens pipelineId ++ [row'.fencingToken] else tokens key) :
    AllFenced (table.write pipelineId row') tokens' := by
  obtain ⟨older, holder⟩ := history_of_row hrow
  have hchange : FencedLease.Change table.clock (table.history pipelineId)
      (some row'.fencingToken) (row'.version :: table.history pipelineId) := by
    rw [holder]
    exact .grant row'.version row.version older hexpired hnext
  exact h.write hchange htokens

theorem AllFenced.create (h : AllFenced table tokens) {pipelineId : String} {row : LeaseRow}
    (hrow : table.row pipelineId = none) (hunheld : row.runId = none) :
    AllFenced (table.write pipelineId row) tokens := by
  have hchange : FencedLease.Change table.clock (table.history pipelineId) none
      (row.version :: table.history pipelineId) := by
    rw [history_of_no_row hrow]
    exact .create row.version hunheld
  refine h.write hchange ?_
  intro key
  by_cases hkey : key = pipelineId <;> simp [hkey]

theorem AllFenced.first (h : AllFenced table tokens) {pipelineId : String} {row : LeaseRow}
    (hrow : table.row pipelineId = none)
    (htokens : ∀ key, tokens' key =
      if key = pipelineId then tokens pipelineId ++ [row.fencingToken] else tokens key) :
    AllFenced (table.write pipelineId row) tokens' := by
  have hchange : FencedLease.Change table.clock (table.history pipelineId)
      (some row.fencingToken) (row.version :: table.history pipelineId) := by
    rw [history_of_no_row hrow]
    exact .first row.version
  exact h.write hchange htokens

/-- Fenced histories of a traced store; the clock only moves on. -/
def fencedDiscipline (granted : String → Sigma Res → Option ℤ) :
    Discipline (LeaseTable × List (Sigma Res)) where
  inv state := AllFenced state.1 (fun pipelineId => state.2.filterMap (granted pipelineId))
  le state state' := state.1.clock ≤ state'.1.clock
  refl _ := le_rfl
  trans _ _ _ := le_trans

/-- The invariant after one more operation. -/
theorem fencedDiscipline_snoc {granted : String → Sigma Res → Option ℤ}
    {state state' : LeaseTable × List (Sigma Res)} {performed : Sigma Res}
    (htrace : state'.2 = state.2 ++ [performed])
    (h : AllFenced state'.1 (fun pipelineId => state.2.filterMap (granted pipelineId) ++
      (granted pipelineId performed).toList)) :
    (fencedDiscipline granted).inv state' := by
  have hlast : ∀ pipelineId, [performed].filterMap (granted pipelineId) =
      (granted pipelineId performed).toList := by
    intro pipelineId
    cases hop : granted pipelineId performed <;> simp [hop]
  unfold fencedDiscipline
  simpa only [htrace, List.filterMap_append, hlast] using h

theorem isOwnedBy_iff {row : LeaseRow} {runId : String} {token : ℤ} :
    row.isOwnedBy runId token = true ↔ row.runId = some runId ∧ row.fencingToken = token := by
  simp [LeaseRow.isOwnedBy]

end Guarantees

section Acquired

/-- The token an acquire of `key` returned, if it is about the pipeline. -/
def grantedToken (pipelineId key : String) : Except LeaseError (Option ℤ) → Option ℤ
  | .ok token => if key = pipelineId then token else none
  | .error _ => none

variable {tokens tokens' : String → List ℤ} {key : String}

@[simp] theorem grantedToken_none (pipelineId : String) :
    grantedToken pipelineId key (.ok none) = none := by
  simp [grantedToken]

@[simp] theorem grantedToken_error (pipelineId : String) (error : LeaseError) :
    grantedToken pipelineId key (.error error) = none := rfl

theorem tokens_of_granted {token : ℤ}
    (htokens : ∀ pipelineId, tokens' pipelineId = tokens pipelineId ++
      (grantedToken pipelineId key (.ok (some token))).toList) (pipelineId : String) :
    tokens' pipelineId =
      if pipelineId = key then tokens key ++ [token] else tokens pipelineId := by
  by_cases hkey : pipelineId = key
  · simp [htokens, grantedToken, hkey]
  · simp [htokens, grantedToken, hkey, Ne.symm hkey]

end Acquired

section Owner

/-- The table is as before, unless the lease is the current one: then its row was rewritten
under the same token. -/
def OwnerOnly (lease : LeaseHandle) (table table' : LeaseTable) : Prop :=
  table' = table ∨ ∃ row row', table.row lease.pipelineId = some row ∧
    row.isOwnedBy lease.runId lease.fencingToken = true ∧
    row'.fencingToken = row.fencingToken ∧ table' = table.write lease.pipelineId row'

variable {lease : LeaseHandle} {table table' : LeaseTable}

theorem OwnerOnly.fenced {tokens : String → List ℤ} (h : OwnerOnly lease table table')
    (hfenced : AllFenced table tokens) :
    AllFenced table' tokens ∧ table'.clock = table.clock := by
  rcases h with rfl | ⟨row, row', hrow, -, hsame, rfl⟩
  · exact ⟨hfenced, rfl⟩
  · exact ⟨hfenced.rewrite hrow hsame, rfl⟩

theorem OwnerOnly.exact (h : OwnerOnly lease table table') {pipelineId : String}
    (hchanged : table'.versions pipelineId ≠ table.versions pipelineId) :
    pipelineId = lease.pipelineId ∧ ∃ row, table.row pipelineId = some row ∧
      row.runId = some lease.runId ∧ row.fencingToken = lease.fencingToken := by
  rcases h with rfl | ⟨row, row', hrow, howned, -, rfl⟩
  · exact absurd rfl hchanged
  · have hkey : pipelineId = lease.pipelineId := by
      by_contra hne
      apply hchanged
      simp [Function.update_of_ne hne]
    subst hkey
    exact ⟨rfl, row, hrow, isOwnedBy_iff.mp howned⟩

end Owner

section Sqlite

def SqliteOp.granted (pipelineId : String) : Sigma SqliteOp.Res → Option ℤ
  | ⟨.acquire _ key _ _, reply⟩ => grantedToken pipelineId key reply
  | _ => none

def SqliteOp.presented : SqliteOp → Option LeaseHandle
  | .heartbeat _ lease _ => some lease
  | .release lease _ => some lease
  | _ => none

variable {table table' : LeaseTable} {tokens tokens' : String → List ℤ}
  {leaseSeconds : ℕ} {pipelineId runId : String} {lease : LeaseHandle} {now : ℚ}

theorem sqliteAcquire_fenced {reply : Except LeaseError (Option ℤ)}
    (h : AllFenced table tokens) (hnow : now ≤ table.clock)
    (hstep : sqliteAcquire leaseSeconds pipelineId runId now table = (reply, table'))
    (htokens : ∀ key, tokens' key = tokens key ++ (grantedToken key pipelineId reply).toList) :
    AllFenced table' tokens' ∧ table'.clock = table.clock := by
  unfold sqliteAcquire at hstep
  cases hrow : table.row pipelineId with
  | none =>
    simp only [hrow] at hstep
    obtain ⟨rfl, rfl⟩ := Prod.mk.inj hstep
    exact ⟨h.first hrow (tokens_of_granted htokens), rfl⟩
  | some row =>
    simp only [hrow] at hstep
    split at hstep
    next hexpired =>
      split at hstep
      next hrange =>
        obtain ⟨rfl, rfl⟩ := Prod.mk.inj hstep
        obtain rfl : tokens' = tokens := funext fun key => by simp [htokens]
        exact ⟨h, rfl⟩
      next hrange =>
        obtain ⟨rfl, rfl⟩ := Prod.mk.inj hstep
        have hclock := hexpired.trans hnow
        exact ⟨h.grant hrow hclock rfl (tokens_of_granted htokens), rfl⟩
    next hactive =>
      obtain ⟨rfl, rfl⟩ := Prod.mk.inj hstep
      obtain rfl : tokens' = tokens := funext fun key => by simp [htokens]
      exact ⟨h, rfl⟩

theorem sqliteHeartbeat_ownerOnly {reply : Bool}
    (hstep : sqliteHeartbeat leaseSeconds lease now table = (reply, table')) :
    OwnerOnly lease table table' := by
  unfold sqliteHeartbeat at hstep
  cases hrow : table.row lease.pipelineId with
  | none =>
    simp only [hrow] at hstep
    exact .inl (Prod.mk.inj hstep).2.symm
  | some row =>
    simp only [hrow] at hstep
    split at hstep
    next howned =>
      obtain ⟨-, rfl⟩ := Prod.mk.inj hstep
      rw [Bool.and_eq_true] at howned
      exact .inr ⟨row, ⟨row.runId, row.fencingToken, some now, now + leaseSeconds⟩, hrow,
        howned.1, rfl, rfl⟩
    next => exact .inl (Prod.mk.inj hstep).2.symm

theorem sqliteRelease_ownerOnly {reply : Bool}
    (hstep : sqliteRelease lease now table = (reply, table')) :
    OwnerOnly lease table table' := by
  unfold sqliteRelease at hstep
  cases hrow : table.row lease.pipelineId with
  | none =>
    simp only [hrow] at hstep
    exact .inl (Prod.mk.inj hstep).2.symm
  | some row =>
    simp only [hrow] at hstep
    split at hstep
    next howned =>
      obtain ⟨-, rfl⟩ := Prod.mk.inj hstep
      exact .inr ⟨row, ⟨none, row.fencingToken, some now, now⟩, hrow, howned, rfl, rfl⟩
    next => exact .inl (Prod.mk.inj hstep).2.symm

abbrev sqliteDiscipline := fencedDiscipline SqliteOp.granted

theorem sqlite_time_safe {α : Type} {next : ℚ → Prog SqliteOp SqliteOp.Res LeaseError α}
    {state : LeaseTable × List (Sigma SqliteOp.Res)}
    (hnext : ∀ now state', now ≤ state'.1.clock →
      Safe sqlite.traced sqliteDiscipline (fun _ _ => True) (fun _ _ => True) (next now) state') :
    Safe sqlite.traced sqliteDiscipline (fun _ _ => True) (fun _ _ => True)
      (.call SqliteOp.time next) state := by
  intro t ht hinv now t' hdone
  obtain ⟨⟨hle, htable⟩, htrace⟩ := hdone
  have hclock : t'.1.clock = now := by rw [htable]; rfl
  refine ⟨?_, ?_, hnext now t' hclock.ge⟩
  · apply fencedDiscipline_snoc htrace
    rw [htable]
    simpa [SqliteOp.granted] using AllFenced.showing hinv hle
  · exact hle.trans hclock.ge

theorem sqlite_acquire_safe {α : Type}
    {next : Except LeaseError (Option ℤ) → Prog SqliteOp SqliteOp.Res LeaseError α}
    {state : LeaseTable × List (Sigma SqliteOp.Res)} (hnow : now ≤ state.1.clock)
    (hnext : ∀ reply state', Safe sqlite.traced sqliteDiscipline (fun _ _ => True)
      (fun _ _ => True) (next reply) state') :
    Safe sqlite.traced sqliteDiscipline (fun _ _ => True) (fun _ _ => True)
      (.call (SqliteOp.acquire leaseSeconds pipelineId runId now) next) state := by
  intro t ht hinv reply t' hdone
  obtain ⟨hstep, htrace⟩ := hdone
  have hclock : now ≤ t.1.clock := hnow.trans ht
  have hfenced := sqliteAcquire_fenced hinv hclock hstep (fun key => rfl)
  exact ⟨fencedDiscipline_snoc htrace hfenced.1, hfenced.2.ge, hnext reply t'⟩

/-- The operations that only an owner's lease changes a row by. -/
theorem sqlite_ownerOnly {o : SqliteOp} {reply : o.Res} (hpresented : o.presented = some lease)
    (hstep : sqlite.step o table reply table') : OwnerOnly lease table table' := by
  cases o with
  | time => cases hpresented
  | acquire => cases hpresented
  | heartbeat seconds lease' now =>
    cases hpresented
    exact sqliteHeartbeat_ownerOnly hstep
  | release lease' now =>
    cases hpresented
    exact sqliteRelease_ownerOnly hstep

theorem sqlite_owner_safe {o : SqliteOp} (hpresented : o.presented = some lease)
    {state : LeaseTable × List (Sigma SqliteOp.Res)} :
    Safe sqlite.traced sqliteDiscipline (fun _ _ => True) (fun _ _ => True)
      (Prog.perform o : Prog SqliteOp SqliteOp.Res LeaseError o.Res) state := by
  intro t ht hinv reply t' hdone
  obtain ⟨hstep, htrace⟩ := hdone
  have hfenced := (sqlite_ownerOnly hpresented hstep).fenced hinv
  have hnone : ∀ key, SqliteOp.granted key ⟨o, reply⟩ = none := by
    intro key
    cases o <;> first | rfl | cases hpresented
  refine ⟨fencedDiscipline_snoc htrace ?_, hfenced.2.ge, trivial⟩
  simpa [hnone] using hfenced.1

theorem sqlite_body_safe (call : SqliteLeaseStore × Request)
    (state : LeaseTable × List (Sigma SqliteOp.Res)) :
    Safe sqlite.traced sqliteDiscipline (fun _ _ => True) (fun _ _ => True)
      (SqliteLeaseStore.body call) state := by
  obtain ⟨store, request⟩ := call
  cases request with
  | acquire pipelineId runId =>
    apply sqlite_time_safe
    intro now state' hnow
    apply sqlite_acquire_safe hnow
    intro reply state''
    cases reply with
    | error error => exact trivial
    | ok token => cases token <;> exact trivial
  | heartbeat lease =>
    apply sqlite_time_safe
    intro now state' hnow
    exact Safe.bind (sqlite_owner_safe rfl) (fun _ _ _ _ => trivial)
  | release lease =>
    apply sqlite_time_safe
    intro now state' hnow
    exact Safe.bind (sqlite_owner_safe rfl) (fun _ _ _ _ => trivial)

end Sqlite

section Postgresql

def PostgresqlOp.granted (pipelineId : String) : Sigma PostgresqlOp.Res → Option ℤ
  | ⟨.acquire _ key _, reply⟩ => grantedToken pipelineId key reply
  | _ => none

def PostgresqlOp.presented : PostgresqlOp → Option LeaseHandle
  | .heartbeat _ lease => some lease
  | .release lease => some lease
  | .acquire .. => none

variable {table table' : LeaseTable} {tokens tokens' : String → List ℤ}
  {leaseSeconds : ℕ} {pipelineId runId : String} {lease : LeaseHandle} {readings : Readings}

theorem insertVacant_fenced (h : AllFenced table tokens) (pipelineId : String) :
    AllFenced (insertVacant pipelineId table) tokens ∧
      (insertVacant pipelineId table).clock = table.clock := by
  unfold insertVacant
  cases hrow : table.row pipelineId with
  | none => exact ⟨h.create hrow rfl, rfl⟩
  | some row => exact ⟨h, rfl⟩

theorem updateExpired_fenced {token : Option ℤ} (h : AllFenced table tokens)
    (hclock : readings.condition ≤ table.clock)
    (hstep : updateExpired leaseSeconds pipelineId runId readings table = .ok (token, table'))
    (htokens : ∀ key, tokens' key =
      tokens key ++ (grantedToken key pipelineId (.ok token)).toList) :
    AllFenced table' tokens' ∧ table'.clock = table.clock := by
  unfold updateExpired at hstep
  cases hrow : table.row pipelineId with
  | none =>
    simp only [hrow, Except.ok.injEq] at hstep
    obtain ⟨rfl, rfl⟩ := Prod.mk.inj hstep
    obtain rfl : tokens' = tokens := funext fun key => by simp [htokens]
    exact ⟨h, rfl⟩
  | some row =>
    simp only [hrow] at hstep
    split at hstep
    next hexpired =>
      split at hstep
      next hrange => cases hstep
      next hrange =>
        obtain ⟨rfl, rfl⟩ := Prod.mk.inj (Except.ok.inj hstep)
        exact ⟨h.grant hrow (hexpired.trans hclock) rfl (tokens_of_granted htokens), rfl⟩
    next hactive =>
      obtain ⟨rfl, rfl⟩ := Prod.mk.inj (Except.ok.inj hstep)
      obtain rfl : tokens' = tokens := funext fun key => by simp [htokens]
      exact ⟨h, rfl⟩

theorem postgresqlAcquire_fenced {reply : Except LeaseError (Option ℤ)}
    (h : AllFenced table tokens) (hclock : readings.condition ≤ table.clock)
    (hstep : postgresqlAcquire leaseSeconds pipelineId runId readings table = (reply, table'))
    (htokens : ∀ key, tokens' key = tokens key ++ (grantedToken key pipelineId reply).toList) :
    AllFenced table' tokens' ∧ table'.clock = table.clock := by
  obtain ⟨hinserted, hsame⟩ := insertVacant_fenced h pipelineId
  unfold postgresqlAcquire at hstep
  split at hstep
  next token updated hupdate =>
    obtain ⟨rfl, rfl⟩ := Prod.mk.inj hstep
    have hfenced := updateExpired_fenced hinserted (by rw [hsame]; exact hclock) hupdate htokens
    exact ⟨hfenced.1, hfenced.2.trans hsame⟩
  next error herror =>
    obtain ⟨rfl, rfl⟩ := Prod.mk.inj hstep
    obtain rfl : tokens' = tokens := funext fun key => by simp [htokens]
    exact ⟨h, rfl⟩

theorem postgresqlHeartbeat_ownerOnly {reply : Bool}
    (hstep : postgresqlHeartbeat leaseSeconds lease readings table = (reply, table')) :
    OwnerOnly lease table table' := by
  unfold postgresqlHeartbeat at hstep
  cases hrow : table.row lease.pipelineId with
  | none =>
    simp only [hrow] at hstep
    exact .inl (Prod.mk.inj hstep).2.symm
  | some row =>
    simp only [hrow] at hstep
    split at hstep
    next howned =>
      obtain ⟨-, rfl⟩ := Prod.mk.inj hstep
      rw [Bool.and_eq_true] at howned
      exact .inr ⟨row, ⟨row.runId, row.fencingToken, some readings.heartbeatAt,
        readings.expiry + leaseSeconds⟩, hrow, howned.1, rfl, rfl⟩
    next => exact .inl (Prod.mk.inj hstep).2.symm

theorem postgresqlRelease_ownerOnly {reply : Bool}
    (hstep : postgresqlRelease lease readings table = (reply, table')) :
    OwnerOnly lease table table' := by
  unfold postgresqlRelease at hstep
  cases hrow : table.row lease.pipelineId with
  | none =>
    simp only [hrow] at hstep
    exact .inl (Prod.mk.inj hstep).2.symm
  | some row =>
    simp only [hrow] at hstep
    split at hstep
    next howned =>
      obtain ⟨-, rfl⟩ := Prod.mk.inj hstep
      exact .inr ⟨row, ⟨none, row.fencingToken, some readings.heartbeatAt, readings.expiry⟩,
        hrow, howned, rfl, rfl⟩
    next => exact .inl (Prod.mk.inj hstep).2.symm

theorem postgresql_ownerOnly {o : PostgresqlOp} {reply : o.Res}
    (hpresented : o.presented = some lease)
    (hstep : postgresqlExec readings o table = (reply, table')) :
    OwnerOnly lease table table' := by
  cases o with
  | acquire => cases hpresented
  | heartbeat seconds lease' =>
    cases hpresented
    exact postgresqlHeartbeat_ownerOnly hstep
  | release lease' =>
    cases hpresented
    exact postgresqlRelease_ownerOnly hstep

abbrev postgresqlDiscipline := fencedDiscipline PostgresqlOp.granted

/-- Every operation keeps the fenced histories, whatever the clock shows meanwhile. -/
theorem postgresql_step_fenced {o : PostgresqlOp} {reply : o.Res}
    {state state' : LeaseTable × List (Sigma PostgresqlOp.Res)}
    (hinv : postgresqlDiscipline.inv state) (hdone : postgresql.traced.step o state reply state') :
    postgresqlDiscipline.inv state' ∧ postgresqlDiscipline.le state state' := by
  obtain ⟨⟨readings, hclock, hstep⟩, htrace⟩ := hdone
  have hread : readings.condition ≤ readings.expiry := readings.ordered.1.trans readings.ordered.2
  have hshown := AllFenced.showing hinv (hclock.trans hread)
  cases o with
  | acquire leaseSeconds pipelineId runId =>
    have hfenced := postgresqlAcquire_fenced hshown hread hstep (fun key => rfl)
    exact ⟨fencedDiscipline_snoc htrace hfenced.1, (hclock.trans hread).trans hfenced.2.ge⟩
  | heartbeat leaseSeconds lease =>
    have hfenced := (postgresql_ownerOnly rfl hstep).fenced hshown
    refine ⟨fencedDiscipline_snoc htrace ?_, (hclock.trans hread).trans hfenced.2.ge⟩
    simpa [PostgresqlOp.granted] using hfenced.1
  | release lease =>
    have hfenced := (postgresql_ownerOnly rfl hstep).fenced hshown
    refine ⟨fencedDiscipline_snoc htrace ?_, (hclock.trans hread).trans hfenced.2.ge⟩
    simpa [PostgresqlOp.granted] using hfenced.1

end Postgresql

section Runs

variable {Op : Type} {Res : Op → Type} {C : Type} {m : Machine Op Res LeaseTable}
  {body : C → Prog Op Res LeaseError Reply} {granted : String → Sigma Res → Option ℤ}
  {presented : Op → Option LeaseHandle} {clock : ℚ}
  {events : List (Event Op Res LeaseError Reply C)}
  {cfg : Config Op Res LeaseError Reply C LeaseTable}

/-- Safe calls on an empty table give all guarantees. -/
theorem guarantees_of_safe
    (hsafe : ∀ call state, Safe m.traced (fencedDiscipline granted) (fun _ _ => True)
      (fun _ _ => True) (body call) state)
    (howner : ∀ o table reply table' lease, presented o = some lease →
      m.step o table reply table' → ∀ pipelineId,
      table'.versions pipelineId ≠ table.versions pipelineId →
      pipelineId = lease.pipelineId ∧ ∃ row, table.row pipelineId = some row ∧
        row.runId = some lease.runId ∧ row.fencingToken = lease.fencingToken)
    (run : Run m body (fun _ _ => True) (.start (.empty clock)) events cfg) :
    Guarantees m body granted presented events cfg := by
  have hstart : PoolSafe m.traced (fencedDiscipline granted) (fun _ _ _ => True)
      (fun _ _ _ => True) (⟨(.empty clock, []), fun _ => none⟩ :
        Config Op Res LeaseError Reply C (LeaseTable × List (Sigma Res))) :=
    PoolSafe.start (AllFenced.empty clock)
  have hpool := (run.traced.poolSafe (fun _ _ _ _ _ _ => trivial) (fun _ _ _ _ _ _ => trivial)
    (fun cfg i c _ _ => hsafe c cfg.state) hstart).1
  have hfenced : AllFenced cfg.state
      (fun pipelineId => (events.filterMap Event.operation).filterMap (granted pipelineId)) :=
    hpool.1
  refine ⟨fun pipelineId => (hfenced pipelineId).increasing, ?_, ?_⟩
  · intro pipelineId moment hmoment runId other hholds hother
    exact (hfenced pipelineId).holds_unique hmoment hholds hother
  · intro i c o r cfg' lease pipelineId hpresented next hchanged
    cases next with
    | perform _ _ _ next _ s' live done =>
      exact howner o _ r s' lease hpresented done pipelineId hchanged

/-- In both stores, after every interleaving of calls with any crashes and clocks: the tokens
of successful acquires strictly increase, at no moment do two runs hold an unexpired lease,
and a heartbeat or release changes a row only when called with its current run and token. -/
theorem leases_fenced (clock : ℚ) :
    (∀ events cfg, Run sqlite SqliteLeaseStore.body (fun _ _ => True)
        (.start (.empty clock)) events cfg →
      Guarantees sqlite SqliteLeaseStore.body SqliteOp.granted SqliteOp.presented events cfg) ∧
    (∀ events cfg, Run postgresql PostgreSQLLeaseStore.body (fun _ _ => True)
        (.start (.empty clock)) events cfg →
      Guarantees postgresql PostgreSQLLeaseStore.body PostgresqlOp.granted
        PostgresqlOp.presented events cfg) := by
  constructor
  · intro events cfg run
    refine guarantees_of_safe sqlite_body_safe ?_ run
    intro o table reply table' lease hpresented hstep pipelineId hchanged
    exact (sqlite_ownerOnly hpresented hstep).exact hchanged
  · intro events cfg run
    refine guarantees_of_safe (fun call state => Safe.of_steps ?_ _ state) ?_ run
    · intro o t r t' hinv hdone
      exact postgresql_step_fenced hinv hdone
    · intro o table reply table' lease hpresented hstep pipelineId hchanged
      obtain ⟨readings, hclock, hexec⟩ := hstep
      exact (postgresql_ownerOnly hpresented hexec).exact hchanged

/-- A clock that moves on by a hundred seconds at every reading. -/
def sqliteExec : (o : SqliteOp) → LeaseTable → Option (o.Res × LeaseTable)
  | .time, table => some (table.clock + 100, table.showing (table.clock + 100))
  | .acquire leaseSeconds pipelineId runId now, table =>
    some (sqliteAcquire leaseSeconds pipelineId runId now table)
  | .heartbeat leaseSeconds lease now, table => some (sqliteHeartbeat leaseSeconds lease now table)
  | .release lease now, table => some (sqliteRelease lease now table)

theorem sqliteExec_step (o : SqliteOp) (table : LeaseTable) (reply : o.Res) (table' : LeaseTable)
    (h : sqliteExec o table = some (reply, table')) : sqlite.step o table reply table' := by
  cases o with
  | time =>
    obtain ⟨rfl, rfl⟩ := Prod.mk.inj (Option.some.inj h)
    exact ⟨by simp, rfl⟩
  | acquire leaseSeconds pipelineId runId now => exact Option.some.inj h
  | heartbeat leaseSeconds lease now => exact Option.some.inj h
  | release lease now => exact Option.some.inj h

def shortLease : SqliteLeaseStore := ⟨30, by decide⟩

abbrev TakenOver (table : LeaseTable) : Prop :=
  (table.row "p").map (fun row => (row.runId, row.fencingToken)) = some (some "b", 2)

/-- The second run takes over after the first one's lease has expired. -/
theorem leases_fenced_takeover :
    ∃ events cfg, Run sqlite SqliteLeaseStore.body (fun _ _ => True)
        (.start (.empty 0)) events cfg ∧ TakenOver cfg.state ∧
      Guarantees sqlite SqliteLeaseStore.body SqliteOp.granted SqliteOp.presented events cfg := by
  have hplay : (play sqliteExec SqliteLeaseStore.body (fun _ _ => true) (.start (.empty 0))
      [.issue 0 (shortLease, .acquire "p" "a"), .exec 0, .exec 0, .finish 0,
        .issue 1 (shortLease, .acquire "p" "b"), .exec 1, .exec 1, .finish 1]).any
      (fun last => decide (TakenOver last.state)) = true := by
    decide +kernel
  obtain ⟨events, cfg, run, htaken⟩ :=
    play_reaches (P := TakenOver) sqliteExec_step (fun _ _ _ => trivial) hplay
  exact ⟨events, cfg, run, htaken, (leases_fenced 0).1 events cfg run⟩

end Runs

end Dander.Leases
