import Dander.TargetFenceSafety

/-!
# The four fences on sequential histories

With one call at a time and no refused request, every implementation does what one small
ledger of owners does, as long as Redshift's identifier limit and the column types of all
four warehouses admit the values.
-/
namespace Dander.Fence

open Interleaving Concurrency

section Ledger

variable {D : Type}

/-- The owner of each target and pipeline, and the published data. -/
structure Ledger (D : Type) where
  rows : String → String → Option FenceRow
  data : D

def Ledger.empty (data : D) : Ledger D := ⟨fun _ _ => none, data⟩

def Ledger.write (l : Ledger D) (targetId pipelineId : String) (row : FenceRow) : Ledger D :=
  { l with rows := fun t p => if t = targetId ∧ p = pipelineId then some row else l.rows t p }

/-- One call of a sequential history; a publication uses the fence that the claim of the same
target and token returns. -/
inductive HistoryCall (D : Type) where
  | claim (target : RelationRef) (fence : FencingToken)
  | publish (target : RelationRef) (fence : FencingToken) (statements : List (D → Option D))

def HistoryCall.on (provider : Provider) : HistoryCall D → FenceCall D
  | .claim target fence => .claim target fence
  | .publish target fence statements => .publish (targetFence provider target fence) statements

def isOk {ε α : Type} : Except ε α → Bool
  | .ok _ => true
  | .error _ => false

/-- The checks of the returned fence, which look at no provider's table name. -/
def isIssuable (target : RelationRef) (fence : FencingToken) : Bool :=
  isOk (targetFence .postgresql target fence).postInit

def Ledger.claim (catalog : String) (target : RelationRef) (fence : FencingToken)
    (l : Ledger D) : Bool × Ledger D :=
  if target.catalog ≠ catalog then (false, l)
  else if (l.rows target.targetId fence.pipelineId).any
      (fun row => !claimIsAllowed row.owner (FencingToken.owner fence)) then (false, l)
  else (isIssuable target fence,
    l.write target.targetId fence.pipelineId ⟨FencingToken.owner fence, .claimed⟩)

def Ledger.publish (target : RelationRef) (fence : FencingToken)
    (statements : List (D → Option D)) (l : Ledger D) : Bool × Ledger D :=
  match l.rows target.targetId fence.pipelineId with
  | none => (false, l)
  | some row =>
    if row.owner ≠ FencingToken.owner fence then (false, l)
    else
      match applyStatements statements l.data with
      | none => (false, l)
      | some data => (true,
          { l.write target.targetId fence.pipelineId { row with status := .committed } with
            data := data })

def Ledger.apply (catalog : String) : HistoryCall D → Ledger D → Bool × Ledger D
  | .claim target fence, l => l.claim catalog target fence
  | .publish target fence statements, l => l.publish target fence statements

/-- Which calls of a history the ledger accepts. -/
def Ledger.run (catalog : String) : List (HistoryCall D) → Ledger D → List Bool
  | [], _ => []
  | call :: rest, l => (l.apply catalog call).1 :: Ledger.run catalog rest (l.apply catalog call).2

/-- Which calls of a history a provider accepts, each run alone to its end. -/
def runHistory (provider : Provider) (catalog : String) :
    List (HistoryCall D) → Database D → Option (List Bool)
  | [], _ => some []
  | call :: rest, s =>
    match (perform provider catalog (call.on provider)).eval (serve provider) s with
    | none => none
    | some (out, t) => (runHistory provider catalog rest t).map (fun accepted => isOk out :: accepted)

/-- The values of a claim fit every provider's columns and Redshift's identifiers, and a
publication has something to publish. -/
def HistoryCall.Admissible : HistoryCall D → Prop
  | .claim target fence => validateRedshiftRelation target = .ok () ∧
      ∀ provider : Provider,
        provider.fits (claimKey provider target fence) (FencingToken.owner fence) = true
  | .publish _ _ statements => statements ≠ []

end Ledger

section Alone

variable {D : Type} {provider : Provider} {s t : Database D} {session : Session D} {α : Type}

/-- The stored rows and data, with no lock held. -/
structure Settled (stored : FenceTables) (published : D) (s : Database D) : Prop where
  fences : s.fences = stored
  data : s.data = published
  idle : ∀ name, s.locks name = none

/-- The only open session, which began on these rows and data. -/
structure Within (stored : FenceTables) (published : D) (session : Session D)
    (s : Database D) : Prop where
  fences : s.fences = stored
  data : s.data = published
  active : s.active session.id = true
  locks : ∀ name, s.locks name = none ∨ s.locks name = some session.id
  snapshot : session.snapshot = stored
  base : session.base = s.version

variable {fences : FenceTables} {data : D}

/-- A session is known by its identity and by what it began on. -/
theorem Within.of_session (h : Within fences data session s) {later : Session D}
    (hid : later.id = session.id) (hsnapshot : later.snapshot = session.snapshot)
    (hbase : later.base = session.base) : Within fences data later s where
  fences := h.fences
  data := h.data
  active := by rw [hid]; exact h.active
  locks := by rw [hid]; exact h.locks
  snapshot := hsnapshot.trans h.snapshot
  base := hbase.trans h.base

theorem Within.rows (h : Within fences data session s) (key : FenceKey) :
    session.rows provider s key = (session.written.lookup key).getD (fences key) := by
  unfold Session.rows
  cases session.written.lookup key with
  | some rows => rfl
  | none => simp [h.snapshot, h.fences]

theorem Within.acquire (h : Within fences data session s) (name : Option LockName) :
    ∃ t, s.acquire session.id name = some t ∧ Within fences data session t := by
  cases name with
  | none => exact ⟨s, rfl, h⟩
  | some lock =>
    rcases h.locks lock with hfree | hheld
    · refine ⟨{ s with locks := Function.update s.locks lock (some session.id) },
        by simp [Database.acquire, hfree], h.fences, h.data, h.active, ?_, h.snapshot, h.base⟩
      intro other
      by_cases hother : other = lock
      · simp [hother]
      · simp [Function.update_of_ne hother, h.locks other]
    · exact ⟨s, by simp [Database.acquire, hheld], h⟩

theorem settled_close {rows : FenceTables} {d : D} (hfences : s.fences = rows)
    (hdata : s.data = d) (tx : ℕ) (hlocks : ∀ name, s.locks name = none ∨ s.locks name = some tx) :
    Settled rows d (s.close tx) := by
  refine ⟨hfences, hdata, ?_⟩
  intro name
  rcases hlocks name with hnone | hmine <;> simp [Database.close, *]

theorem serve_eq {o : FenceOp D} (htx : o.transaction = some session.id)
    (h : Within fences data session s) : serve provider o s = serveOpen provider o s := by
  simp [serve, htx, h.active]

/-- A served request, as the start of a program. -/
theorem evaluates_call {o : FenceOp D} {a : Payload o} {Q : Database D → Prop}
    (h : serve provider o s = some (.ok a, t)) (hQ : Q t) :
    Evaluates (serve provider)
      (.call o (fun reply : Except Fault (Payload o) => (liftReply reply : FenceAction D _))) s
      (.ok a) Q :=
  ⟨t, by simp [Prog.eval, h, liftReply], hQ⟩

theorem evaluates_call_error {o : FenceOp D} {fault : Fault} {Q : Database D → Prop}
    (h : serve provider o s = some (.error fault, t)) (hQ : Q t) :
    Evaluates (serve provider)
      (.call o (fun reply : Except Fault (Payload o) => (liftReply reply : FenceAction D _))) s
      (.error (.database fault)) Q :=
  ⟨t, by simp [Prog.eval, h, liftReply], hQ⟩

def Session.opened (s : Database D) : Session D := ⟨s.next, [], [], s.fences, s.version⟩

theorem evaluates_begin (h : Settled fences data s) :
    Evaluates (serve provider) (beginTransaction : FenceAction D (Session D)) s
      (.ok (Session.opened s)) (Within fences data (Session.opened s)) := by
  refine evaluates_call (o := FenceOp.begin) rfl ?_
  exact ⟨h.fences, h.data, by simp [Session.opened], fun name => .inl (h.idle name), h.fences, rfl⟩

theorem evaluates_rollbackAndRaise (h : Within fences data session s) (e : FenceError) :
    Evaluates (serve provider) (rollbackAndRaise session.id e : FenceAction D α) s (.error e)
      (Settled fences data) := by
  have hrollback : Evaluates (serve provider)
      (rollbackTransaction session.id : FenceAction D Unit) s (.ok ()) (Settled fences data) :=
    evaluates_call (o := FenceOp.rollback session.id) (serve_eq rfl h)
      (settled_close h.fences h.data session.id h.locks)
  exact hrollback.bind (fun t ht => ⟨t, rfl, ht⟩)

/-- A transaction that fails is rolled back: nothing has changed. -/
theorem evaluates_rolledBack {p : FenceAction D α} {e : FenceError}
    (h : ∃ last : Session D, last.id = session.id ∧
      Evaluates (serve provider) p s (.error e) (Within fences data last)) :
    Evaluates (serve provider) (p.tryCatch (rollbackAndRaise session.id)) s (.error e)
      (Settled fences data) := by
  obtain ⟨last, hid, hp⟩ := h
  refine hp.tryCatch_error ?_
  intro t ht
  rw [← hid]
  exact evaluates_rollbackAndRaise ht e

theorem evaluates_commit (provider : Provider) (h : Within fences data session s) {d : D}
    (hstatements : applyStatements session.statements data = some d) :
    Evaluates (serve provider) (commitTransaction session) s (.ok ())
      (Settled (fun key => (session.written.lookup key).getD (fences key)) d) := by
  have hcurrent : session.isCurrent s = true := by
    simp [Session.isCurrent, h.base]
  have happlied : s.commit provider session =
      (.ok (), (s.applied session d).close session.id) := by
    simp [Database.commit, hcurrent, h.data, hstatements]
  have hcommit : serve provider (.commit session) s =
      some (.ok (), (s.applied session d).close session.id) := by
    rw [serve_eq rfl h]
    exact congrArg some happlied
  refine evaluates_call (o := FenceOp.commit session) hcommit ?_
  apply settled_close
  · simp [Database.applied, h.fences]
  · rfl
  · exact h.locks

/-- Any request of the session, with the state it is served in. -/
theorem Within.request {o : FenceOp D} (h : Within fences data session s)
    (htx : o.transaction = some session.id) {a : Payload o} (later : Session D)
    (hid : later.id = session.id) (hsnapshot : later.snapshot = session.snapshot)
    (hbase : later.base = session.base) (name : Option LockName)
    (hserve : ∀ locked, s.acquire session.id name = some locked →
      serveOpen provider o s = some (.ok a, locked)) :
    Evaluates (serve provider)
      (.call o (fun reply : Except Fault (Payload o) => (liftReply reply : FenceAction D _))) s
      (.ok a) (Within fences data later) := by
  obtain ⟨t, hacquire, ht⟩ := h.acquire name
  refine evaluates_call (t := t) ?_ (ht.of_session hid hsnapshot hbase)
  rw [serve_eq htx h]
  exact hserve t hacquire

theorem evaluates_mergeClaim (h : Within fences data session s) (hwritten : session.written = [])
    {key : FenceKey} {owner : Owner} (hfits : provider.fits key owner = true)
    (hmerged : (mergeRows owner (fences key)).2 ≠ 0) :
    Evaluates (serve provider) (mergeClaim session key owner) s
      (.ok ((mergeRows owner (fences key)).2,
        session.write key (mergeRows owner (fences key)).1))
      (Within fences data (session.write key (mergeRows owner (fences key)).1)) := by
  have hrows : session.rows provider s key = fences key := by
    rw [h.rows key, hwritten]
    rfl
  apply h.request (o := FenceOp.mergeClaim session key owner) rfl
    (session.write key (mergeRows owner (fences key)).1) rfl rfl rfl (provider.scope key)
  intro locked hlocked
  simp [serveOpen, hfits, hlocked, hrows, hmerged]

theorem evaluates_mergeClaim_refused (h : Within fences data session s)
    (hwritten : session.written = []) {key : FenceKey} {owner : Owner}
    (hfits : provider.fits key owner = true) (hmerged : (mergeRows owner (fences key)).2 = 0) :
    Evaluates (serve provider) (mergeClaim session key owner) s (.ok (0, session))
      (Within fences data session) := by
  have hrows : session.rows provider s key = fences key := by
    rw [h.rows key, hwritten]
    rfl
  apply h.request (o := FenceOp.mergeClaim session key owner) rfl session rfl rfl rfl
    (provider.scope key)
  intro locked hlocked
  simp [serveOpen, hfits, hlocked, hrows, hmerged]

/-- The stored rows after the commit of a session that wrote one key. -/
theorem lookup_write {key : FenceKey} {rows : List FenceRow} (hwritten : session.written = []) :
    (fun other => ((session.write key rows).written.lookup other).getD (fences other)) =
      Function.update fences key rows := by
  funext other
  by_cases hother : other = key
  · subst hother
    simp [Session.write]
  · have hbeq : (other == key) = false := by simpa using hother
    simp [Session.write, List.lookup, hbeq, hwritten, Function.update_of_ne hother]

theorem mergeRows_count {rows : List FenceRow} {owner : Owner} (hsingle : rows.length ≤ 1)
    (hmerged : (mergeRows owner rows).2 ≠ 0) : (mergeRows owner rows).2 = 1 := by
  rcases rows_cases hsingle with rfl | ⟨row, rfl⟩
  · rfl
  · by_cases hallowed : claimIsAllowed row.owner owner = true
    · simp [mergeRows, hallowed]
    · simp [mergeRows, hallowed] at hmerged

end Alone

section Claims

variable {D : Type} {provider : Provider} {s : Database D} {session : Session D}
  {fences : FenceTables} {data : D} {catalog : String} {target : RelationRef}
  {fence : FencingToken}

theorem joinDots_fenceTableParts_ne (provider : Provider) (target : RelationRef) :
    joinDots (fenceTableParts provider target) ≠ "" := by
  intro hempty
  have hparts := splitDots_fenceTableParts provider target
  rw [hempty] at hparts
  have hlength := congrArg List.length hparts
  cases provider <;> simp [splitDots, fenceTableParts] at hlength

/-- The constructor only asks whether the table name is empty. -/
theorem postInit_fenceTable {returned : TargetFence} {table : String}
    (h : returned.fenceTable ≠ "") (htable : table ≠ "") :
    { returned with fenceTable := table }.postInit = returned.postInit := by
  have hsame : decide (table = "") = decide (returned.fenceTable = "") := by
    simp [h, htable]
  simp only [TargetFence.postInit, hsame]

theorem isOk_postInit (provider : Provider) (target : RelationRef) (fence : FencingToken) :
    isOk (targetFence provider target fence).postInit = isIssuable target fence := by
  have hthis := joinDots_fenceTableParts_ne provider target
  have hthat := joinDots_fenceTableParts_ne .postgresql target
  have hsame : { targetFence .postgresql target fence with
      fenceTable := joinDots (fenceTableParts provider target) }.postInit =
      (targetFence .postgresql target fence).postInit := postInit_fenceTable hthat hthis
  exact congrArg isOk hsame

/-- The fence is returned when its constructor accepts it. -/
def returnedFence (provider : Provider) (target : RelationRef) (fence : FencingToken) :
    Except FenceError TargetFence :=
  match (targetFence provider target fence).postInit with
  | .ok _ => .ok (targetFence provider target fence)
  | .error e => .error (.value e)

theorem isOk_returnedFence (provider : Provider) (target : RelationRef) (fence : FencingToken) :
    isOk (returnedFence provider target fence) = isIssuable target fence := by
  rw [← isOk_postInit provider]
  unfold returnedFence
  cases (targetFence provider target fence).postInit <;> rfl

theorem evaluates_returnFence {Q : Database D → Prop} (h : Q s) :
    Evaluates (serve provider) (returnFence provider target fence) s
      (returnedFence provider target fence) Q := by
  unfold returnFence returnedFence
  cases (targetFence provider target fence).postInit <;> exact ⟨s, rfl, h⟩

/-- A merge that is accepted, and its commit. -/
theorem evaluates_merge {key : FenceKey} {owner : Owner} (h : Within fences data session s)
    (hwritten : session.written = []) (hstatements : session.statements = [])
    (hfits : provider.fits key owner = true) (hsingle : (fences key).length ≤ 1)
    (hmerged : (mergeRows owner (fences key)).2 ≠ 0) :
    Evaluates (serve provider)
      (mergeClaim session key owner >>= fun merged =>
        commitTransaction merged.2 >>= fun _ => .ret merged.1) s (.ok 1)
      (Settled (Function.update fences key [⟨owner, .claimed⟩]) data) := by
  refine (evaluates_mergeClaim h hwritten hfits hmerged).bind ?_
  intro t ht
  have hrows := (advances_mergeRows hsingle hmerged).1
  rw [hrows] at ht ⊢
  rw [mergeRows_count hsingle hmerged]
  have hcommit := evaluates_commit provider ht (d := data)
    (by simp [Session.write, hstatements, applyStatements])
  rw [lookup_write hwritten] at hcommit
  exact hcommit.bind (fun u hu => ⟨u, rfl, hu⟩)

theorem evaluates_merge_refused {key : FenceKey} {owner : Owner}
    (h : Within fences data session s) (hwritten : session.written = [])
    (hstatements : session.statements = []) (hfits : provider.fits key owner = true)
    (hmerged : (mergeRows owner (fences key)).2 = 0) :
    Evaluates (serve provider)
      (mergeClaim session key owner >>= fun merged =>
        commitTransaction merged.2 >>= fun _ => .ret merged.1) s (.ok 0) (Settled fences data) := by
  refine (evaluates_mergeClaim_refused h hwritten hfits hmerged).bind ?_
  intro t ht
  have hcommit := evaluates_commit provider ht (d := data)
    (by simp [hstatements, applyStatements])
  have hsame : (fun key => (session.written.lookup key).getD (fences key)) = fences := by
    simp [hwritten]
  rw [hsame] at hcommit
  exact hcommit.bind (fun u hu => ⟨u, rfl, hu⟩)

/-- What is stored once a claim is accepted. -/
def claimedTables (fences : FenceTables) (provider : Provider) (target : RelationRef)
    (fence : FencingToken) : FenceTables :=
  Function.update fences (claimKey provider target fence) [⟨FencingToken.owner fence, .claimed⟩]

/-- The rows under the key of a claim, with the facts that every provider's claim needs. -/
structure Claimable (fences : FenceTables) (provider : Provider) (target : RelationRef)
    (fence : FencingToken) : Prop where
  fits : provider.fits (claimKey provider target fence) (FencingToken.owner fence) = true
  single : (fences (claimKey provider target fence)).length ≤ 1

/-- How many rows the claim would write. -/
def claimCount (fences : FenceTables) (provider : Provider) (target : RelationRef)
    (fence : FencingToken) : ℕ :=
  (mergeRows (FencingToken.owner fence) (fences (claimKey provider target fence))).2

theorem evaluates_postgresqlClaim (h : Settled fences data s) (hcatalog : target.catalog = catalog)
    (hclaimable : Claimable fences .postgresql target fence)
    (hcount : claimCount fences .postgresql target fence ≠ 0) :
    Evaluates (serve .postgresql) (postgresqlClaim catalog target fence) s
      (returnedFence .postgresql target fence)
      (Settled (claimedTables fences .postgresql target fence) data) := by
  rw [postgresqlClaim, if_neg (not_not.mpr hcatalog)]
  refine (evaluates_begin h).bind fun t ht => ?_
  refine ((evaluates_merge ht rfl rfl hclaimable.fits hclaimable.single hcount).tryCatch).bind
    fun u hu => ?_
  exact evaluates_returnFence hu

theorem evaluates_postgresqlClaim_refused (h : Settled fences data s)
    (hcatalog : target.catalog = catalog) (hclaimable : Claimable fences .postgresql target fence)
    (hcount : claimCount fences .postgresql target fence = 0) :
    Evaluates (serve .postgresql) (postgresqlClaim catalog target fence) s
      (.error (claimLost target)) (Settled fences data) := by
  rw [postgresqlClaim, if_neg (not_not.mpr hcatalog)]
  refine (evaluates_begin h).bind fun t ht => ?_
  refine ((evaluates_merge_refused ht rfl rfl hclaimable.fits hcount).tryCatch).bind fun u hu => ?_
  exact ⟨u, rfl, hu⟩

theorem evaluates_snowflakeClaim (h : Settled fences data s) (hcatalog : target.catalog = catalog)
    (hclaimable : Claimable fences .snowflake target fence)
    (hcount : claimCount fences .snowflake target fence ≠ 0) :
    Evaluates (serve .snowflake) (snowflakeClaim catalog target fence) s
      (returnedFence .snowflake target fence)
      (Settled (claimedTables fences .snowflake target fence) data) := by
  rw [snowflakeClaim, if_neg (not_not.mpr hcatalog)]
  refine (evaluates_begin h).bind fun t ht => ?_
  have hmerge : Evaluates (serve .snowflake)
      (mergeClaim (Session.opened s) (claimKey .snowflake target fence)
          (FencingToken.owner fence) >>= fun merged =>
        if merged.1 = 0 then .raise (claimLost target) else commitTransaction merged.2) t (.ok ())
      (Settled (claimedTables fences .snowflake target fence) data) := by
    refine (evaluates_mergeClaim ht rfl hclaimable.fits hcount).bind fun u hu => ?_
    simp only [claimCount] at hcount
    rw [if_neg hcount]
    have hrows := (advances_mergeRows hclaimable.single hcount).1
    rw [hrows] at hu ⊢
    have hcommit := evaluates_commit .snowflake hu (d := data) rfl
    rw [lookup_write rfl] at hcommit
    exact hcommit
  refine (hmerge.tryCatch).bind fun u hu => ?_
  exact evaluates_returnFence hu

theorem evaluates_snowflakeClaim_refused (h : Settled fences data s)
    (hcatalog : target.catalog = catalog) (hclaimable : Claimable fences .snowflake target fence)
    (hcount : claimCount fences .snowflake target fence = 0) :
    Evaluates (serve .snowflake) (snowflakeClaim catalog target fence) s
      (.error (claimLost target)) (Settled fences data) := by
  rw [snowflakeClaim, if_neg (not_not.mpr hcatalog)]
  refine (evaluates_begin h).bind fun t ht => ?_
  refine (evaluates_rolledBack ⟨Session.opened s, rfl, ?_⟩).bind_error
  exact (evaluates_mergeClaim_refused ht rfl hclaimable.fits hcount).bind
    fun u hu => ⟨u, rfl, hu⟩

theorem evaluates_bigqueryClaim (h : Settled fences data s) (hcatalog : target.catalog = catalog)
    (hclaimable : Claimable fences .bigquery target fence)
    (hcount : claimCount fences .bigquery target fence ≠ 0) :
    Evaluates (serve .bigquery) (bigqueryClaim catalog target fence) s
      (returnedFence .bigquery target fence)
      (Settled (claimedTables fences .bigquery target fence) data) := by
  rw [bigqueryClaim, if_neg (not_not.mpr hcatalog)]
  have hsubmit : Evaluates (serve .bigquery)
      (submitMerge (claimKey .bigquery target fence) (FencingToken.owner fence)) s (.ok 1)
      (Settled (claimedTables fences .bigquery target fence) data) :=
    (evaluates_begin h).bind fun t ht =>
      (evaluates_merge ht rfl rfl hclaimable.fits hclaimable.single hcount).tryCatch
  exact (hsubmit.tryCatch).bind fun u hu => evaluates_returnFence hu

theorem evaluates_bigqueryClaim_refused (h : Settled fences data s)
    (hcatalog : target.catalog = catalog) (hclaimable : Claimable fences .bigquery target fence)
    (hcount : claimCount fences .bigquery target fence = 0) :
    Evaluates (serve .bigquery) (bigqueryClaim catalog target fence) s
      (.error (claimLost target)) (Settled fences data) := by
  rw [bigqueryClaim, if_neg (not_not.mpr hcatalog)]
  have hsubmit : Evaluates (serve .bigquery)
      (submitMerge (claimKey .bigquery target fence) (FencingToken.owner fence)) s (.ok 0)
      (Settled fences data) :=
    (evaluates_begin h).bind fun t ht =>
      (evaluates_merge_refused ht rfl rfl hclaimable.fits hcount).tryCatch
  exact (hsubmit.tryCatch).bind fun u hu => ⟨u, rfl, hu⟩

/-- Under the table lock, a claim reads the one row that is stored. -/
theorem evaluates_lockAndSelect {α : Type} {key : FenceKey} (h : Within fences data session s)
    (hwritten : session.written = []) {rest : Option Owner → FenceAction D α}
    {out : Except FenceError α} {Q : Database D → Prop}
    (hrest : ∀ t, Within fences data session t → Evaluates (serve .redshift)
      (rest ((fences key).head?.map FenceRow.owner)) t out Q) :
    Evaluates (serve .redshift)
      (lockTable session key.table >>= fun _ => selectClaim session key >>= rest) s out Q := by
  have hlock : Evaluates (serve .redshift) (lockTable session key.table) s (.ok ())
      (Within fences data session) := by
    apply h.request (o := FenceOp.lock session key.table) rfl session rfl rfl rfl
      (some (.table key.table))
    intro locked hlocked
    simp [serveOpen, hlocked]
  refine hlock.bind fun t ht => ?_
  have hrows : session.rows .redshift t key = fences key := by
    rw [ht.rows key, hwritten]
    rfl
  have hselect : Evaluates (serve .redshift) (selectClaim session key) t
      (.ok ((fences key).head?.map FenceRow.owner)) (Within fences data session) := by
    apply ht.request (o := FenceOp.selectClaim session key) rfl session rfl rfl rfl none
    intro locked hlocked
    obtain rfl : t = locked := Option.some.inj hlocked
    simp [serveOpen, hrows]
  exact hselect.bind hrest

theorem evaluates_claimLocked {key : FenceKey} {owner : Owner} (h : Within fences data session s)
    (hwritten : session.written = []) (hfits : Provider.redshift.fits key owner = true)
    (hsingle : (fences key).length ≤ 1) (hmerged : (mergeRows owner (fences key)).2 ≠ 0) :
    Evaluates (serve .redshift) (claimLocked session target key owner) s
      (.ok (session.write key [⟨owner, .claimed⟩]))
      (Within fences data (session.write key [⟨owner, .claimed⟩])) := by
  apply evaluates_lockAndSelect h hwritten
  intro t ht
  have hrows : session.rows .redshift t key = fences key := by
    rw [ht.rows key, hwritten]
    rfl
  have hwrite : ∀ locked, t.acquire session.id (some (.table key.table)) = some locked →
      t.writeClaim .redshift session key owner [⟨owner, .claimed⟩] =
        some (.ok (session.write key [⟨owner, .claimed⟩]), locked) := by
    intro locked hlocked
    simp [Database.writeClaim, hfits, Provider.scope, hlocked]
  rcases rows_cases hsingle with hnone | ⟨row, hone⟩
  · rw [hnone]
    apply ht.request (o := FenceOp.insertClaim session key owner) rfl
      (session.write key [⟨owner, .claimed⟩]) rfl rfl rfl (some (.table key.table))
    intro locked hlocked
    simp only [serveOpen, hrows, hnone, List.nil_append]
    exact hwrite locked hlocked
  · have hallowed : claimIsAllowed row.owner owner = true := by
      by_contra hnot
      simp [hone, mergeRows, hnot] at hmerged
    rw [hone]
    simp only [List.head?_cons, Option.map_some, if_pos hallowed]
    apply ht.request (o := FenceOp.updateClaim session key owner) rfl
      (session.write key [⟨owner, .claimed⟩]) rfl rfl rfl (some (.table key.table))
    intro locked hlocked
    simp only [serveOpen, hrows, hone, List.map_cons, List.map_nil]
    exact hwrite locked hlocked

theorem evaluates_claimLocked_refused {key : FenceKey} {owner : Owner}
    (h : Within fences data session s) (hwritten : session.written = [])
    (hsingle : (fences key).length ≤ 1) (hmerged : (mergeRows owner (fences key)).2 = 0) :
    Evaluates (serve .redshift) (claimLocked session target key owner) s
      (.error (claimLost target)) (Within fences data session) := by
  apply evaluates_lockAndSelect h hwritten
  intro t ht
  rcases rows_cases hsingle with hnone | ⟨row, hone⟩
  · simp [hnone, mergeRows] at hmerged
  · have hrefused : ¬ claimIsAllowed row.owner owner = true := by
      intro hallowed
      simp [hone, mergeRows, hallowed] at hmerged
    rw [hone]
    simp only [List.head?_cons, Option.map_some, if_neg hrefused]
    exact ⟨t, rfl, ht⟩

theorem evaluates_redshiftClaim (h : Settled fences data s) (hcatalog : target.catalog = catalog)
    (hrelation : validateRedshiftRelation target = .ok ())
    (hclaimable : Claimable fences .redshift target fence)
    (hcount : claimCount fences .redshift target fence ≠ 0) :
    Evaluates (serve .redshift) (redshiftClaim catalog target fence) s
      (returnedFence .redshift target fence)
      (Settled (claimedTables fences .redshift target fence) data) := by
  rw [redshiftClaim, hrelation, liftValue, Prog.ret_bind, if_neg (not_not.mpr hcatalog)]
  refine (evaluates_begin h).bind fun t ht => ?_
  have hclaim : Evaluates (serve .redshift)
      (claimLocked (Session.opened s) target (claimKey .redshift target fence)
        (FencingToken.owner fence) >>= commitTransaction) t (.ok ())
      (Settled (claimedTables fences .redshift target fence) data) := by
    refine (evaluates_claimLocked ht rfl hclaimable.fits hclaimable.single hcount).bind
      fun u hu => ?_
    have hcommit := evaluates_commit .redshift hu (d := data) rfl
    rw [lookup_write rfl] at hcommit
    exact hcommit
  exact (hclaim.tryCatch).bind fun u hu => evaluates_returnFence hu

theorem evaluates_redshiftClaim_refused (h : Settled fences data s)
    (hcatalog : target.catalog = catalog) (hrelation : validateRedshiftRelation target = .ok ())
    (hclaimable : Claimable fences .redshift target fence)
    (hcount : claimCount fences .redshift target fence = 0) :
    Evaluates (serve .redshift) (redshiftClaim catalog target fence) s
      (.error (claimLost target)) (Settled fences data) := by
  rw [redshiftClaim, hrelation, liftValue, Prog.ret_bind, if_neg (not_not.mpr hcatalog)]
  refine (evaluates_begin h).bind fun t ht => ?_
  refine (evaluates_rolledBack ⟨Session.opened s, rfl, ?_⟩).bind_error
  exact (evaluates_claimLocked_refused ht rfl hclaimable.single hcount).bind_error

theorem evaluates_claim (h : Settled fences data s) (hcatalog : target.catalog = catalog)
    (hrelation : validateRedshiftRelation target = .ok ())
    (hclaimable : Claimable fences provider target fence)
    (hcount : claimCount fences provider target fence ≠ 0) :
    Evaluates (serve provider) (claim provider catalog target fence) s
      (returnedFence provider target fence)
      (Settled (claimedTables fences provider target fence) data) := by
  cases provider with
  | postgresql => exact evaluates_postgresqlClaim h hcatalog hclaimable hcount
  | redshift => exact evaluates_redshiftClaim h hcatalog hrelation hclaimable hcount
  | snowflake => exact evaluates_snowflakeClaim h hcatalog hclaimable hcount
  | bigquery => exact evaluates_bigqueryClaim h hcatalog hclaimable hcount

theorem evaluates_claim_refused (h : Settled fences data s)
    (hrelation : validateRedshiftRelation target = .ok ())
    (hclaimable : Claimable fences provider target fence)
    (hrefused : target.catalog ≠ catalog ∨ claimCount fences provider target fence = 0) :
    ∃ e, Evaluates (serve provider) (claim provider catalog target fence) s (.error e)
      (Settled fences data) := by
  by_cases hcatalog : target.catalog = catalog
  · have hcount := hrefused.resolve_left (not_not.mpr hcatalog)
    refine ⟨claimLost target, ?_⟩
    cases provider with
    | postgresql => exact evaluates_postgresqlClaim_refused h hcatalog hclaimable hcount
    | redshift => exact evaluates_redshiftClaim_refused h hcatalog hrelation hclaimable hcount
    | snowflake => exact evaluates_snowflakeClaim_refused h hcatalog hclaimable hcount
    | bigquery => exact evaluates_bigqueryClaim_refused h hcatalog hclaimable hcount
  · cases provider with
    | postgresql => exact ⟨_, s, by rw [claim, postgresqlClaim, if_pos hcatalog]; rfl, h⟩
    | redshift =>
      exact ⟨_, s, by
        rw [claim, redshiftClaim, hrelation, liftValue, Prog.ret_bind, if_pos hcatalog]; rfl, h⟩
    | snowflake => exact ⟨_, s, by rw [claim, snowflakeClaim, if_pos hcatalog]; rfl, h⟩
    | bigquery => exact ⟨_, s, by rw [claim, bigqueryClaim, if_pos hcatalog]; rfl, h⟩

end Claims

section Publications

variable {D : Type} {provider : Provider} {s : Database D} {session : Session D}
  {fences : FenceTables} {data : D} {catalog : String}

theorem applyStatements_append (first second : List (D → Option D)) (d : D) :
    applyStatements (first ++ second) d =
      (applyStatements first d).bind (applyStatements second) := by
  induction first generalizing d with
  | nil => rfl
  | cons statement rest ih =>
    simp only [List.cons_append, applyStatements]
    cases statement d with
    | none => rfl
    | some next => exact ih next

/-- The statements run one after another, on what the session has published so far. -/
theorem evaluates_runStatements (statements : List (D → Option D))
    (h : Within fences data session s) {published d : D}
    (hbefore : applyStatements session.statements data = some published)
    (hstatements : applyStatements statements published = some d) :
    Evaluates (serve provider) (runStatements session statements) s
      (.ok { session with statements := session.statements ++ statements })
      (Within fences data { session with statements := session.statements ++ statements }) := by
  induction statements generalizing session s published with
  | nil => exact ⟨s, by simp [runStatements, Prog.eval], by simpa using h⟩
  | cons statement rest ih =>
    simp only [applyStatements, Option.bind_eq_some_iff] at hstatements
    obtain ⟨next, hnext, hrest⟩ := hstatements
    have hstatement : Evaluates (serve provider)
        (.call (.statement session statement) fun (reply : Except Fault (Session D)) =>
          (liftReply reply : FenceAction D _)) s
        (.ok { session with statements := session.statements ++ [statement] })
        (Within fences data { session with statements := session.statements ++ [statement] }) := by
      apply h.request (o := FenceOp.statement session statement) rfl
        { session with statements := session.statements ++ [statement] } rfl rfl rfl none
      intro locked hlocked
      obtain rfl : s = locked := Option.some.inj hlocked
      simp [serveOpen, h.data, hbefore, hnext]
    refine hstatement.bind fun t ht => ?_
    have hmiddle : applyStatements (session.statements ++ [statement]) data = some next := by
      rw [applyStatements_append, hbefore]
      simp [applyStatements, hnext]
    have hrun := ih ht hmiddle hrest
    simpa using hrun

theorem evaluates_runStatements_failed (statements : List (D → Option D))
    (h : Within fences data session s) {published : D}
    (hbefore : applyStatements session.statements data = some published)
    (hstatements : applyStatements statements published = none) :
    ∃ last : Session D, last.id = session.id ∧
      Evaluates (serve provider) (runStatements session statements) s
        (.error (.database .failed)) (Within fences data last) := by
  induction statements generalizing session s published with
  | nil => cases hstatements
  | cons statement rest ih =>
    simp only [applyStatements] at hstatements
    cases hnext : statement published with
    | none =>
      refine ⟨session, rfl, ?_⟩
      have hfailed : serve provider (.statement session statement) s = some (.error .failed, s) := by
        rw [serve_eq rfl h]
        simp [serveOpen, h.data, hbefore, hnext]
      exact (evaluates_call_error (o := FenceOp.statement session statement) hfailed h).bind_error
    | some next =>
      rw [hnext] at hstatements
      have hmiddle : applyStatements (session.statements ++ [statement]) data = some next := by
        rw [applyStatements_append, hbefore]
        simp [applyStatements, hnext]
      have hserved : serve provider (.statement session statement) s =
          some (.ok { session with statements := session.statements ++ [statement] }, s) := by
        rw [serve_eq rfl h]
        simp [serveOpen, h.data, hbefore, hnext]
      have hlater : Within fences data
          { session with statements := session.statements ++ [statement] } s :=
        h.of_session rfl rfl rfl
      obtain ⟨last, hid, hrest⟩ := ih hlater hmiddle hstatements
      refine ⟨last, hid, ?_⟩
      refine (evaluates_call (o := FenceOp.statement session statement) (Q := fun t => t = s)
        hserved rfl).bind ?_
      rintro t rfl
      exact hrest

theorem updateMatching_eq {key : FenceKey} (owner : Owner) (rows : List FenceRow)
    (change : List FenceRow → List FenceRow) (h : Within fences data session s)
    (hrows : (session.written.lookup key).getD (fences key) = rows)
    (hcount : rows.countP (targetMatch owner) ≠ 0) (locked : Database D)
    (hlocked : s.acquire session.id (provider.scope key) = some locked) :
    s.updateMatching provider session key owner change =
      some (.ok (rows.countP (targetMatch owner), session.write key (change rows)), locked) := by
  have hread : session.rows provider s key = rows := by rw [h.rows key, hrows]
  simp [Database.updateMatching, hread, hcount, hlocked]

/-- The row the publication of an owner works on. -/
structure Published (fences : FenceTables) (key : FenceKey) (owner : Owner) (row : FenceRow) :
    Prop where
  stored : fences key = [row]
  owned : row.owner = owner

theorem Published.targetMatch {key : FenceKey} {owner : Owner} {row : FenceRow}
    (h : Published fences key owner row) : targetMatch owner row = true := by
  rw [Fence.targetMatch, h.owned]
  cases row.status <;> simp

theorem isLost_one (provider : Provider) : (publicationPlan provider).isLost 1 = false := by
  cases provider <;> rfl

theorem evaluates_lockFirst (provider : Provider) (key : FenceKey) (h : Within fences data session s) :
    Evaluates (serve provider)
      ((if (publicationPlan provider).locksTable then lockTable session key.table
        else .ret ()) : FenceAction D Unit) s (.ok ()) (Within fences data session) := by
  split
  · apply h.request (o := FenceOp.lock session key.table) rfl session rfl rfl rfl
      (some (.table key.table))
    intro locked hlocked
    simp [serveOpen, hlocked]
  · exact ⟨s, rfl, h⟩

theorem evaluates_touchFence (provider : Provider) {key : FenceKey} {owner : Owner} {row : FenceRow}
    (h : Within fences data session s) (hwritten : session.written = [])
    (hpublished : Published fences key owner row) :
    Evaluates (serve provider) (touchFence session key owner) s
      (.ok (1, session.write key [row])) (Within fences data (session.write key [row])) := by
  apply h.request (o := FenceOp.touch session key owner) rfl (session.write key [row]) rfl rfl rfl
    (provider.scope key)
  intro locked hlocked
  have hcount : [row].countP (targetMatch owner) = 1 := by simp [hpublished.targetMatch]
  have hrows : (session.written.lookup key).getD (fences key) = [row] := by
    rw [hwritten, ← hpublished.stored]
    rfl
  have hupdate := updateMatching_eq owner [row] id h hrows (by rw [hcount]; decide) locked hlocked
  rw [hcount] at hupdate
  exact hupdate

theorem evaluates_markCommitted {key : FenceKey} {owner : Owner} {row : FenceRow}
    (h : Within fences data session s) (hwritten : session.written = [(key, [row])])
    (hpublished : Published fences key owner row) :
    Evaluates (serve provider) (markCommitted session key owner) s
      (.ok (1, session.write key [{ row with status := .committed }]))
      (Within fences data (session.write key [{ row with status := .committed }])) := by
  apply h.request (o := FenceOp.markCommitted session key owner) rfl
    (session.write key [{ row with status := .committed }]) rfl rfl rfl (provider.scope key)
  intro locked hlocked
  have hcount : [row].countP (targetMatch owner) = 1 := by simp [hpublished.targetMatch]
  have hmark : markRows owner [row] = [{ row with status := .committed }] := by
    simp [markRows, hpublished.targetMatch]
  have hrows : (session.written.lookup key).getD (fences key) = [row] := by
    rw [hwritten]
    simp
  have hupdate := updateMatching_eq owner [row] (markRows owner) h hrows
    (by rw [hcount]; decide) locked hlocked
  rw [hcount, hmark] at hupdate
  exact hupdate

/-- A publication under the stored owner replaces the data and marks the row. -/
theorem evaluates_publishWithin (provider : Provider) {key : FenceKey} {owner : Owner} {row : FenceRow}
    {statements : List (D → Option D)} {d : D} (h : Settled fences data s)
    (hpublished : Published fences key owner row)
    (hstatements : applyStatements statements data = some d) :
    Evaluates (serve provider) (publishWithin (publicationPlan provider) key owner statements) s
      (.ok ()) (Settled (Function.update fences key [{ row with status := .committed }]) d) := by
  refine (evaluates_begin h).bind fun t ht => Evaluates.tryCatch ?_
  let touched := (Session.opened s).write key [row]
  let published := { touched with statements := statements }
  let marked := published.write key [{ row with status := .committed }]
  have hprepare : Evaluates (serve provider)
      (prepareWithin (publicationPlan provider) (Session.opened s) key owner statements) t
      (.ok marked) (Within fences data marked) := by
    refine (evaluates_lockFirst provider key ht).bind fun u hu => ?_
    refine (evaluates_touchFence provider hu rfl hpublished).bind fun v hv => ?_
    simp only [isLost_one, Bool.false_eq_true, if_false]
    refine (evaluates_runStatements statements hv rfl hstatements).bind fun w hw => ?_
    refine (evaluates_markCommitted hw rfl hpublished).bind fun x hx => ?_
    simp only [isLost_one, Bool.false_eq_true, if_false]
    exact ⟨x, rfl, hx⟩
  refine hprepare.bind fun u hu => ?_
  have hcommit := evaluates_commit provider hu hstatements
  have hstored : (fun other => (marked.written.lookup other).getD (fences other)) =
      Function.update fences key [{ row with status := .committed }] := by
    funext other
    by_cases hother : other = key
    · subst hother
      simp [marked, Session.write]
    · have hbeq : (other == key) = false := by simpa using hother
      simp [marked, published, touched, Session.write, Session.opened, List.lookup, hbeq,
        Function.update_of_ne hother]
  rw [hstored] at hcommit
  exact hcommit

/-- A publication whose owner is not stored, or one of whose statements fails. -/
theorem evaluates_publishWithin_refused {key : FenceKey} {owner : Owner}
    {statements : List (D → Option D)} (h : Settled fences data s)
    (hsingle : (fences key).length ≤ 1)
    (hrefused : (∀ row, ¬ Published fences key owner row) ∨
      applyStatements statements data = none) :
    ∃ e, Evaluates (serve provider)
      (publishWithin (publicationPlan provider) key owner statements) s (.error e)
      (Settled fences data) := by
  by_cases hpublished : ∃ row, Published fences key owner row
  · obtain ⟨row, hpublished⟩ := hpublished
    have hfailed : applyStatements statements data = none :=
      hrefused.resolve_left (fun hnone => hnone row hpublished)
    refine ⟨.database .failed, (evaluates_begin h).bind fun t ht => evaluates_rolledBack ?_⟩
    obtain ⟨u, hlock, hu⟩ := evaluates_lockFirst provider key ht
    obtain ⟨v, htouch, hv⟩ := evaluates_touchFence provider hu rfl hpublished
    obtain ⟨last, hid, hrun⟩ := evaluates_runStatements_failed statements hv rfl hfailed
    refine ⟨last, hid, Evaluates.bind_error ?_⟩
    refine Evaluates.bind (Q := fun w => w = u) ⟨u, hlock, rfl⟩ ?_
    rintro w rfl
    refine Evaluates.bind (Q := fun x => x = v) ⟨v, htouch, rfl⟩ ?_
    rintro x rfl
    simp only [isLost_one, Bool.false_eq_true, if_false]
    exact hrun.bind_error
  · refine ⟨(publicationPlan provider).lostBefore,
      (evaluates_begin h).bind fun t ht => evaluates_rolledBack ⟨Session.opened s, rfl, ?_⟩⟩
    refine Evaluates.bind_error ((evaluates_lockFirst provider key ht).bind fun u hu => ?_)
    have hcount : (fences key).countP (targetMatch owner) = 0 := by
      rcases rows_cases hsingle with hnone | ⟨row, hone⟩
      · simp [hnone]
      · have hother : row.owner ≠ owner := fun howner => hpublished ⟨row, hone, howner⟩
        simp [hone, Fence.targetMatch, hother]
    have htouch : Evaluates (serve provider) (touchFence (Session.opened s) key owner) u
        (.ok (0, Session.opened s)) (Within fences data (Session.opened s)) := by
      apply hu.request (o := FenceOp.touch (Session.opened s) key owner) rfl (Session.opened s)
        rfl rfl rfl none
      intro locked hlocked
      obtain rfl : u = locked := Option.some.inj hlocked
      have hrows : (Session.opened s).rows provider u key = fences key := by
        rw [hu.rows key]
        rfl
      have hupdate : u.updateMatching provider (Session.opened s) key owner id =
          some (.ok (0, Session.opened s), u) := by
        simp [Database.updateMatching, hrows, hcount]
      exact hupdate
    refine htouch.bind fun v hv => ?_
    simp only [isLost_zero, if_true]
    exact ⟨v, rfl, hv⟩

end Publications

section Agreement

variable {D : Type} {provider : Provider} {catalog : String} {s : Database D} {l : Ledger D}

/-- The fence table beside each target holds the ledger's row for it. -/
structure Mirrors (provider : Provider) (catalog : String) (s : Database D) (l : Ledger D) :
    Prop where
  rows : ∀ (target : RelationRef) (pipelineId : String),
    s.fences ⟨fenceTable provider target, target.targetId, pipelineId⟩ =
      (l.rows target.targetId pipelineId).toList
  data : s.data = l.data
  idle : ∀ name, s.locks name = none
  home : ∀ (target : RelationRef) (pipelineId : String) (row : FenceRow),
    l.rows target.targetId pipelineId = some row → target.catalog = catalog

theorem Mirrors.settled (h : Mirrors provider catalog s l) : Settled s.fences l.data s :=
  ⟨rfl, h.data, h.idle⟩

theorem Mirrors.single (h : Mirrors provider catalog s l) (target : RelationRef)
    (pipelineId : String) :
    (s.fences ⟨fenceTable provider target, target.targetId, pipelineId⟩).length ≤ 1 := by
  rw [h.rows]
  cases l.rows target.targetId pipelineId <;> simp

theorem Mirrors.of_settled (h : Mirrors provider catalog s l) {t : Database D}
    (ht : Settled s.fences l.data t) : Mirrors provider catalog t l where
  rows target pipelineId := by rw [ht.fences, h.rows]
  data := ht.data
  idle := ht.idle
  home := h.home

/-- Writing the row of one target on both sides. -/
theorem Mirrors.write (h : Mirrors provider catalog s l) {target : RelationRef}
    {pipelineId : String} {row : FenceRow} {d : D} (hcatalog : target.catalog = catalog)
    {t : Database D}
    (ht : Settled (Function.update s.fences
      ⟨fenceTable provider target, target.targetId, pipelineId⟩ [row]) d t) :
    Mirrors provider catalog t { l.write target.targetId pipelineId row with data := d } where
  rows other pipeline := by
    rw [ht.fences]
    by_cases hsame : other.targetId = target.targetId ∧ pipeline = pipelineId
    · obtain ⟨htarget, rfl⟩ := hsame
      have hcoordinates := RelationRef.coordinates_inj htarget
      have htable : fenceTable provider other = fenceTable provider target := by
        simp only [RelationRef.coordinates, List.cons.injEq, and_true] at hcoordinates
        cases provider <;> simp [fenceTable, hcoordinates]
      simp [htable, htarget, Ledger.write]
    · have hkey : (⟨fenceTable provider other, other.targetId, pipeline⟩ : FenceKey) ≠
          ⟨fenceTable provider target, target.targetId, pipelineId⟩ := by
        intro heq
        simp only [FenceKey.mk.injEq] at heq
        exact hsame heq.2
      rw [Function.update_of_ne hkey, h.rows]
      simp [Ledger.write, hsame]
  data := ht.data
  idle := ht.idle
  home other pipeline row' hrow := by
    by_cases hsame : other.targetId = target.targetId ∧ pipeline = pipelineId
    · have hcoordinates := RelationRef.coordinates_inj hsame.1
      simp only [RelationRef.coordinates, List.cons.injEq, and_true] at hcoordinates
      rw [hcoordinates.1, hcatalog]
    · simp only [Ledger.write, if_neg hsame] at hrow
      exact h.home other pipeline row' hrow

/-- Whether a claim is refused does not depend on where the row is stored. -/
theorem Mirrors.claimCount_eq_zero_iff (h : Mirrors provider catalog s l) (target : RelationRef)
    (fence : FencingToken) :
    claimCount s.fences provider target fence = 0 ↔
      (l.rows target.targetId fence.pipelineId).any
        (fun row => !claimIsAllowed row.owner (FencingToken.owner fence)) = true := by
  unfold claimCount claimKey
  rw [h.rows]
  cases l.rows target.targetId fence.pipelineId with
  | none => simp [mergeRows]
  | some row =>
    by_cases hallowed : claimIsAllowed row.owner (FencingToken.owner fence) = true <;>
      simp [mergeRows, hallowed]

/-- A provider's call and the ledger's accept and store the same. -/
def Agrees (provider : Provider) (catalog : String) (s : Database D) (l : Ledger D)
    (call : HistoryCall D) : Prop :=
  ∃ out t, (perform provider catalog (call.on provider)).eval (serve provider) s = some (out, t) ∧
    isOk out = (l.apply catalog call).1 ∧ Mirrors provider catalog t (l.apply catalog call).2

theorem agrees_claim (h : Mirrors provider catalog s l) {target : RelationRef}
    {fence : FencingToken} (hrelation : validateRedshiftRelation target = .ok ())
    (hfits : provider.fits (claimKey provider target fence) (FencingToken.owner fence) = true) :
    Agrees provider catalog s l (.claim target fence) := by
  have hclaimable : Claimable s.fences provider target fence :=
    ⟨hfits, h.single target fence.pipelineId⟩
  have hrefused : target.catalog ≠ catalog ∨ claimCount s.fences provider target fence = 0 →
      Agrees provider catalog s l (.claim target fence) := by
    intro hcase
    obtain ⟨e, heval⟩ := evaluates_claim_refused h.settled hrelation hclaimable hcase
    obtain ⟨t, heval, ht⟩ := heval.bind_error (f := fun fence => Prog.ret (FenceOutcome.claimed fence))
    have hledger : l.claim catalog target fence = (false, l) := by
      unfold Ledger.claim
      rcases hcase with hcatalog | hcount
      · rw [if_pos hcatalog]
      · rw [h.claimCount_eq_zero_iff] at hcount
        rw [if_pos hcount, ite_self]
    refine ⟨_, t, heval, ?_, ?_⟩
    · simp [Ledger.apply, hledger, isOk]
    · simp only [Ledger.apply, hledger]
      exact h.of_settled ht
  by_cases hcatalog : target.catalog = catalog
  · by_cases hcount : claimCount s.fences provider target fence = 0
    · exact hrefused (.inr hcount)
    · have hclaim := evaluates_claim h.settled hcatalog hrelation hclaimable hcount
      have hledger : l.claim catalog target fence = (isIssuable target fence,
          l.write target.targetId fence.pipelineId ⟨FencingToken.owner fence, .claimed⟩) := by
        rw [h.claimCount_eq_zero_iff] at hcount
        rw [Ledger.claim, if_neg (not_not.mpr hcatalog), if_neg hcount]
      obtain ⟨t, heval, ht⟩ := hclaim
      have hmirrors := h.write hcatalog ht
      have hissued := isOk_returnedFence provider target fence
      have hperform : (perform provider catalog (.claim target fence)).eval (serve provider) s =
          some ((returnedFence provider target fence).map .claimed, t) := by
        rw [perform, Prog.eval_bind, heval]
        cases returnedFence provider target fence <;> rfl
      refine ⟨_, t, hperform, ?_, ?_⟩
      · simp only [Ledger.apply, hledger, ← hissued]
        cases returnedFence provider target fence <;> rfl
      · simp only [Ledger.apply, hledger]
        exact hmirrors
  · exact hrefused (.inl hcatalog)

theorem RelationRef.ne_empty {further : Char → Bool} {text : String}
    (h : isRelationIdentifier further text = true) : text ≠ "" := by
  rintro rfl
  cases h

theorem isTableId_fenceTable (target : RelationRef) :
    isTableId (joinDots (fenceTableParts .bigquery target)) = true := by
  have hsegments : ∀ {further : Char → Bool} {text : String},
      isRelationIdentifier further text = true → isSegment further text.toList = true := by
    intro further text h
    rw [isRelationIdentifier, Bool.and_eq_true] at h
    exact h.1
  have hparts := splitDots_fenceTableParts .bigquery target
  have hsplit : (joinDots (fenceTableParts .bigquery target)).toList.splitOn '.' =
      (fenceTableParts .bigquery target).map String.toList := by
    have hmapped := congrArg (List.map String.toList) hparts
    simpa [splitDots, Function.comp_def] using hmapped
  have hcatalog := hsegments target.catalogValid
  have hnamespace := hsegments target.namespaceValid
  have hname : isSegment (fun _ => false) "_dander_target_commits".toList = true := by decide
  rw [isTableId, hsplit]
  simp only [fenceTableParts, fenceTableName, List.map_cons, List.map_nil, hcatalog, hnamespace,
    hname, Bool.and_self]

/-- The fence that a claim returns names the fence table of its target. -/
theorem publicationTable_targetFence {target : RelationRef} {fence : FencingToken}
    (h : provider = .bigquery → target.catalog = catalog) :
    publicationTable provider catalog (targetFence provider target fence) =
      .ok (fenceTable provider target) := by
  have hparts := splitDots_fenceTableParts provider target
  have hcatalog := RelationRef.ne_empty target.catalogValid
  have hnamespace := RelationRef.ne_empty target.namespaceValid
  cases provider with
  | postgresql =>
    simp only [publicationTable, targetFence, hparts]
    simp [fenceTableParts, fenceTable, fenceTableName, hnamespace]
  | redshift =>
    simp only [publicationTable, targetFence, hparts]
    simp [fenceTableParts, fenceTable]
  | snowflake =>
    simp only [publicationTable, targetFence, hparts]
    simp [fenceTableParts, fenceTable, fenceTableName, hcatalog, hnamespace]
  | bigquery =>
    have htable := isTableId_fenceTable target
    simp only [publicationTable, targetFence, hparts, htable]
    simp [fenceTableParts, fenceTable, h rfl]

/-- The ledger has a row of the owner and the statements succeed. -/
def Ledger.MayPublish (l : Ledger D) (target : RelationRef) (fence : FencingToken)
    (statements : List (D → Option D)) : Prop :=
  ∃ row d, l.rows target.targetId fence.pipelineId = some row ∧
    row.owner = FencingToken.owner fence ∧ applyStatements statements l.data = some d

theorem Ledger.publish_refused {target : RelationRef} {fence : FencingToken}
    {statements : List (D → Option D)} (h : ¬ l.MayPublish target fence statements) :
    l.publish target fence statements = (false, l) := by
  unfold Ledger.publish
  cases hrow : l.rows target.targetId fence.pipelineId with
  | none => rfl
  | some row =>
    simp only
    split
    · rfl
    next howner =>
      cases hstatements : applyStatements statements l.data with
      | none => rfl
      | some d => exact (h ⟨row, d, hrow, not_not.mp howner, hstatements⟩).elim

theorem executeStatements_eq {target : RelationRef} {fence : FencingToken}
    {statements : List (D → Option D)} (hstatements : statements ≠ [])
    (htable : provider = .bigquery → target.catalog = catalog) :
    executeStatements provider catalog (targetFence provider target fence) statements =
      publishWithin (publicationPlan provider)
        ⟨fenceTable provider target, target.targetId, fence.pipelineId⟩
        (FencingToken.owner fence) statements := by
  have hrequire : requireStatements provider statements = .ok () := by
    cases provider <;> simp [requireStatements, hstatements]
  rw [executeStatements, hrequire, publicationTable_targetFence htable]
  rfl

/-- A publication that the ledger refuses is refused by every provider. -/
theorem evaluates_executeStatements_refused (h : Mirrors provider catalog s l)
    {target : RelationRef} {fence : FencingToken} {statements : List (D → Option D)}
    (hstatements : statements ≠ []) (hrefused : ¬ l.MayPublish target fence statements) :
    ∃ e, Evaluates (serve provider)
      (executeStatements provider catalog (targetFence provider target fence) statements) s
      (.error e) (Settled s.fences l.data) := by
  by_cases htable : provider = .bigquery → target.catalog = catalog
  · rw [executeStatements_eq hstatements htable]
    apply evaluates_publishWithin_refused h.settled (h.single target fence.pipelineId)
    by_contra hnot
    push Not at hnot
    obtain ⟨⟨row, hpublished⟩, hdata⟩ := hnot
    have hrow := h.rows target fence.pipelineId
    rw [hpublished.stored] at hrow
    have hstored : l.rows target.targetId fence.pipelineId = some row := by
      cases hledger : l.rows target.targetId fence.pipelineId with
      | none => simp [hledger] at hrow
      | some other =>
        rw [hledger] at hrow
        simp only [Option.toList_some, List.cons.injEq, and_true] at hrow
        rw [hrow]
    obtain ⟨d, hd⟩ := Option.ne_none_iff_exists'.mp hdata
    exact hrefused ⟨row, d, hstored, hpublished.owned, hd⟩
  · obtain ⟨rfl, hcatalog⟩ : provider = .bigquery ∧ target.catalog ≠ catalog := by
      simpa using htable
    have hparts := splitDots_fenceTableParts .bigquery target
    have hforeign : publicationTable .bigquery catalog (targetFence .bigquery target fence) =
        .error (.value ⟨"BigQuery target fence belongs to another runtime project"⟩) := by
      simp only [publicationTable, targetFence, hparts]
      simp [fenceTableParts, hcatalog]
    refine ⟨.value ⟨"BigQuery target fence belongs to another runtime project"⟩, s, ?_, h.settled⟩
    rw [executeStatements, hforeign]
    rfl

theorem agrees_publish (h : Mirrors provider catalog s l) {target : RelationRef}
    {fence : FencingToken} {statements : List (D → Option D)} (hstatements : statements ≠ []) :
    Agrees provider catalog s l (.publish target fence statements) := by
  by_cases hmay : l.MayPublish target fence statements
  · obtain ⟨row, d, hrow, howner, hdata⟩ := hmay
    have hcatalog := h.home target fence.pipelineId row hrow
    have hpublished : Published s.fences
        ⟨fenceTable provider target, target.targetId, fence.pipelineId⟩
        (FencingToken.owner fence) row := by
      refine ⟨?_, howner⟩
      rw [h.rows, hrow]
      rfl
    obtain ⟨t, heval, ht⟩ := evaluates_publishWithin provider h.settled hpublished hdata
    rw [← executeStatements_eq hstatements (fun _ => hcatalog)] at heval
    have hledger : l.publish target fence statements = (true,
        { l.write target.targetId fence.pipelineId { row with status := .committed } with
          data := d }) := by
      simp [Ledger.publish, hrow, howner, hdata]
    have hperform : (perform provider catalog
        (.publish (targetFence provider target fence) statements)).eval (serve provider) s =
        some (.ok .done, t) := by
      rw [perform, Prog.eval_bind, heval]
      rfl
    refine ⟨_, t, hperform, ?_, ?_⟩
    · simp [Ledger.apply, hledger, isOk]
    · simp only [Ledger.apply, hledger]
      exact h.write hcatalog ht
  · obtain ⟨e, heval⟩ := evaluates_executeStatements_refused h hstatements hmay
    obtain ⟨t, heval, ht⟩ := heval.bind_error (f := fun _ => Prog.ret FenceOutcome.done)
    have hledger := Ledger.publish_refused hmay
    refine ⟨_, t, heval, ?_, ?_⟩
    · simp [Ledger.apply, hledger, isOk]
    · simp only [Ledger.apply, hledger]
      exact h.of_settled ht

theorem agrees_call (h : Mirrors provider catalog s l) {call : HistoryCall D}
    (hadmissible : call.Admissible) : Agrees provider catalog s l call := by
  cases call with
  | claim target fence => exact agrees_claim h hadmissible.1 (hadmissible.2 provider)
  | publish target fence statements => exact agrees_publish h hadmissible

theorem mirrors_empty (provider : Provider) (catalog : String) (data : D) :
    Mirrors provider catalog (Database.empty data) (Ledger.empty data) :=
  ⟨fun _ _ => rfl, rfl, fun _ => rfl, fun _ _ _ h => by cases h⟩

/-- Every provider accepts and rejects what the ledger does. -/
theorem runHistory_eq (h : Mirrors provider catalog s l) {history : List (HistoryCall D)}
    (hadmissible : ∀ call ∈ history, call.Admissible) :
    runHistory provider catalog history s = some (Ledger.run catalog history l) := by
  induction history generalizing s l with
  | nil => rfl
  | cons call rest ih =>
    obtain ⟨out, t, heval, hout, ht⟩ := agrees_call h (hadmissible call List.mem_cons_self)
    have hrest := ih ht (fun other hmem => hadmissible other (List.mem_cons_of_mem _ hmem))
    simp [runHistory, heval, hrest, hout, Ledger.run]

end Agreement

section Runs

variable {D : Type}

/-- What holds at the end of a run of claims and publications of one provider: the next step
takes no stored token back, stores nothing for a publication whose token a returned claim has
overtaken, and stores something for a publication only if that publication never reports a
lost fence; and all providers accept the same calls of every admissible history. -/
structure Fenced (provider : Provider) (catalog : String) (data : D)
    (events : List (FenceEvent D)) (cfg : FenceConfig D) : Prop where
  tokens : ∀ event cfg', Step (warehouse provider) (perform provider catalog) cfg event cfg' →
    ∀ key, ∀ row ∈ cfg.state.fences key, ∃ row' ∈ cfg'.state.fences key,
      row.owner.fencingToken ≤ row'.owner.fencingToken
  stale : ∀ i target fence returned,
    Event.finished i (.claim target fence) (.ok (.claimed returned)) ∈ events →
    ∀ j (publication : TargetFence) statements o r cfg',
      Step (warehouse provider) (perform provider catalog) cfg
        (.performed j (.publish publication statements) o r) cfg' →
      publication.fenceTable = returned.fenceTable →
      publication.targetId = returned.targetId →
      publication.pipelineId = returned.pipelineId →
      publication.token < returned.token → Ineffective o cfg.state r cfg'.state
  lost : ∀ j publication statements o r cfg',
    Step (warehouse provider) (perform provider catalog) cfg
      (.performed j (.publish publication statements) o r) cfg' →
    Ineffective o cfg.state r cfg'.state ∨
      ∃ p, cfg'.pool j = some (.publish publication statements, p) ∧ p.Avoids FenceError.IsLost
  agree : ∀ (other : Provider) (history : List (HistoryCall D)),
    (∀ call ∈ history, call.Admissible) →
      ∃ accepted, runHistory provider catalog history (Database.empty data) = some accepted ∧
        runHistory other catalog history (Database.empty data) = some accepted

theorem target_fences {provider : Provider} {catalog : String} {data : D}
    {events : List (FenceEvent D)} {cfg : FenceConfig D}
    (run : Run (warehouse provider) (perform provider catalog) (fun _ _ => True)
      (Config.start (Database.empty data)) events cfg) :
    Fenced provider catalog data events cfg := by
  constructor
  · intro event cfg' next key row hmem
    exact tokens_never_decrease run next key row hmem
  · intro i target fence returned hclaimed j publication statements o r cfg' next htable htarget
      hpipeline htoken
    exact stale_publications_change_nothing run hclaimed next htable htarget hpipeline htoken
  · intro j publication statements o r cfg' next
    exact lost_publications_change_nothing run next
  · intro other history hadmissible
    exact ⟨Ledger.run catalog history (Ledger.empty data),
      runHistory_eq (mirrors_empty provider catalog data) hadmissible,
      runHistory_eq (mirrors_empty other catalog data) hadmissible⟩

def exampleTarget : RelationRef := ⟨"c", "n", "t", by decide, by decide, by decide⟩

def exampleToken (runId : String) (token : ℤ) : FencingToken :=
  ⟨none, "p", runId, token, some "authority", 1⟩

def exampleRow : FenceRow := ⟨FencingToken.owner (exampleToken "second" 2), .claimed⟩

/-- A claim that overtakes an earlier one. -/
theorem target_fences_overtaken :
    ∃ (events : List (FenceEvent Unit)) (cfg : FenceConfig Unit),
      Run (warehouse .postgresql) (perform .postgresql "c") (fun _ _ => True)
        (Config.start (Database.empty ())) events cfg ∧
      cfg.state.fences (claimKey .postgresql exampleTarget (exampleToken "second" 2)) =
        [exampleRow] ∧
      Fenced .postgresql "c" () events cfg := by
  have hplay : (play (serve .postgresql) (perform .postgresql "c") (fun _ _ => true)
      (Config.start (Database.empty ()))
      [.issue 0 (.claim exampleTarget (exampleToken "first" 1)), .exec 0, .exec 0, .exec 0,
        .finish 0, .issue 1 (.claim exampleTarget (exampleToken "second" 2)), .exec 1, .exec 1,
        .exec 1, .finish 1]).any
      (fun last => decide (last.state.fences
        (claimKey .postgresql exampleTarget (exampleToken "second" 2)) = [exampleRow])) = true := by
    decide +kernel
  obtain ⟨events, cfg, hrun, hrow⟩ : ∃ (events : List (FenceEvent Unit)) (cfg : FenceConfig Unit),
      Run (warehouse .postgresql) (perform .postgresql "c") (fun _ _ => True)
        (Config.start (Database.empty ())) events cfg ∧
      cfg.state.fences (claimKey .postgresql exampleTarget (exampleToken "second" 2)) =
        [exampleRow] :=
    play_reaches (m := warehouse .postgresql)
      (P := fun s : Database Unit => s.fences
        (claimKey .postgresql exampleTarget (exampleToken "second" 2)) = [exampleRow])
      (fun _ _ _ _ h => .inl h) (fun _ _ _ => trivial) hplay
  exact ⟨events, cfg, hrun, hrow, target_fences hrun⟩

/-- A relation whose name is too long for Redshift only. -/
def longTarget : RelationRef :=
  ⟨"c", "n", String.ofList (List.replicate 128 'a'), by decide, by decide, by decide +kernel⟩

/-- PostgreSQL accepts a claim that Redshift refuses. -/
theorem long_names_are_refused_by_redshift :
    ¬ ∀ (provider other : Provider) (history : List (HistoryCall Unit)),
      runHistory provider "c" history (Database.empty ()) =
        runHistory other "c" history (Database.empty ()) := by
  intro hall
  have hpostgresql : runHistory .postgresql "c" [.claim longTarget (exampleToken "first" 1)]
      (Database.empty ()) = some [true] := by decide +kernel
  have hredshift : runHistory .redshift "c" [.claim longTarget (exampleToken "first" 1)]
      (Database.empty ()) = some [false] := by decide +kernel
  have hsame := hall .postgresql .redshift [.claim longTarget (exampleToken "first" 1)]
  rw [hpostgresql, hredshift] at hsame
  cases hsame

end Runs

end Dander.Fence
