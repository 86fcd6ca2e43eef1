import Dander.TargetFence

/-!
# Fenced publications under every interleaving

Only a commit changes what is stored. A transaction that has touched or claimed a fence row
either still sees the stored row when it commits or commits nothing, so stored tokens never
decrease and a publication commits only while its own owner is stored.
-/
namespace Dander.Fence

open Interleaving Concurrency

section Invariant

variable {D : Type}

structure Consistent (s : Database D) : Prop where
  single : ∀ key, (s.fences key).length ≤ 1
  fresh : ∀ tx, s.next ≤ tx → s.active tx = false
  held : ∀ name tx, s.locks name = some tx → s.active tx = true

/-- One row, of the same authority and with no smaller token, where there was one. -/
structure Advances (rows later : List FenceRow) : Prop where
  single : later.length ≤ 1
  advances : ∀ row ∈ rows, ∃ row' ∈ later, row'.owner.authorityId = row.owner.authorityId ∧
    row'.owner.authorityEpoch = row.owner.authorityEpoch ∧
    row.owner.fencingToken ≤ row'.owner.fencingToken

/-- How the stored state moves: tokens grow, ended transactions stay ended, and the rows under
a lock or an unchanged version stay as they are. -/
structure Moves (provider : Provider) (s t : Database D) : Prop where
  tokens : ∀ key, ∀ row ∈ s.fences key, ∃ row' ∈ t.fences key,
    row.owner.fencingToken ≤ row'.owner.fencingToken
  next : s.next ≤ t.next
  ended : ∀ tx, tx < s.next → s.active tx = false → t.active tx = false
  locks : ∀ name tx, s.locks name = some tx → tx < s.next → t.active tx = true →
    t.locks name = some tx ∧ ∀ key, provider.scope key = some name → t.fences key = s.fences key
  versions : ∀ key, s.version key.table ≤ t.version key.table ∧
    (t.version key.table = s.version key.table → t.fences key = s.fences key)

/-- Nothing that is stored has changed. -/
structure Unchanged (s t : Database D) : Prop where
  fences : t.fences = s.fences
  data : t.data = s.data

variable {provider : Provider} {s t u : Database D}

theorem Moves.rfl' (s : Database D) : Moves provider s s where
  tokens _ row hmem := ⟨row, hmem, le_refl _⟩
  next := le_refl _
  ended _ _ h := h
  locks _ _ h _ _ := ⟨h, fun _ _ => rfl⟩
  versions _ := ⟨le_refl _, fun _ => rfl⟩

theorem Moves.trans (hst : Moves provider s t) (htu : Moves provider t u) : Moves provider s u where
  tokens key row hmem := by
    obtain ⟨row', hmem', hle⟩ := hst.tokens key row hmem
    obtain ⟨row'', hmem'', hle'⟩ := htu.tokens key row' hmem'
    exact ⟨row'', hmem'', le_trans hle hle'⟩
  next := le_trans hst.next htu.next
  ended tx hlt h := htu.ended tx (lt_of_lt_of_le hlt hst.next) (hst.ended tx hlt h)
  locks name tx h hlt hactive := by
    have hmiddle : t.active tx = true := by
      by_contra hnot
      have hclosed := htu.ended tx (lt_of_lt_of_le hlt hst.next) (by simpa using hnot)
      rw [hactive] at hclosed
      cases hclosed
    obtain ⟨hlock, hsame⟩ := hst.locks name tx h hlt hmiddle
    obtain ⟨hlock', hsame'⟩ := htu.locks name tx hlock (lt_of_lt_of_le hlt hst.next) hactive
    refine ⟨hlock', ?_⟩
    intro key hscope
    rw [hsame' key hscope, hsame key hscope]
  versions key := by
    obtain ⟨hle, hsame⟩ := hst.versions key
    obtain ⟨hle', hsame'⟩ := htu.versions key
    refine ⟨le_trans hle hle', ?_⟩
    intro heq
    rw [hsame' (by omega), hsame (by omega)]

def fenceDiscipline (D : Type) (provider : Provider) : Discipline (Database D) where
  inv := Consistent
  le := Moves provider
  refl := Moves.rfl'
  trans _ _ _ := Moves.trans

theorem Consistent.empty (data : D) : Consistent (Database.empty data) where
  single _ := by simp [Database.empty]
  fresh _ _ := rfl
  held _ _ h := by cases h

end Invariant

section Locks

variable {D : Type} {provider : Provider} {s t : Database D}

/-- A state that differs only in locks that were free before, and in who is open. -/
structure Relocked (s t : Database D) : Prop where
  fences : t.fences = s.fences
  version : t.version = s.version
  data : t.data = s.data
  next : s.next ≤ t.next
  ended : ∀ tx, tx < s.next → s.active tx = false → t.active tx = false
  locks : ∀ name tx, s.locks name = some tx → t.active tx = true → t.locks name = some tx
  consistent : Consistent s → Consistent t

theorem Relocked.moves (h : Relocked s t) : Moves provider s t where
  tokens key row hmem := ⟨row, by rw [h.fences]; exact hmem, le_refl _⟩
  next := h.next
  ended := h.ended
  locks name tx hlock _ hactive :=
    ⟨h.locks name tx hlock hactive, fun key _ => by rw [h.fences]⟩
  versions key := ⟨by rw [h.version], fun _ => by rw [h.fences]⟩

theorem Relocked.unchanged (h : Relocked s t) : Unchanged s t := ⟨h.fences, h.data⟩

theorem Relocked.rfl' (s : Database D) : Relocked s s :=
  ⟨rfl, rfl, rfl, le_refl _, fun _ _ h => h, fun _ _ h _ => h, id⟩

theorem relocked_close (s : Database D) (tx : ℕ) : Relocked s (s.close tx) where
  fences := rfl
  version := rfl
  data := rfl
  next := le_refl _
  ended other _ h := by
    by_cases hother : other = tx
    · simp [Database.close, hother]
    · simp [Database.close, Function.update_of_ne hother, h]
  locks name other hlock hactive := by
    have hother : other ≠ tx := by
      rintro rfl
      simp [Database.close] at hactive
    simp [Database.close, hlock, hother]
  consistent h := by
    refine ⟨h.single, ?_, ?_⟩
    · intro other hle
      by_cases hother : other = tx
      · simp [Database.close, hother]
      · simp [Database.close, Function.update_of_ne hother, h.fresh other hle]
    · intro name other hlock
      simp only [Database.close] at hlock ⊢
      split at hlock
      · cases hlock
      next hnot =>
        have hother : other ≠ tx := by
          rintro rfl
          exact hnot hlock
        rw [Function.update_of_ne hother]
        exact h.held name other hlock

theorem relocked_acquire {tx : ℕ} {name : Option LockName} (hactive : s.active tx = true)
    (h : s.acquire tx name = some t) :
    Relocked s t ∧ ∀ lock, name = some lock → t.locks lock = some tx := by
  cases name with
  | none =>
    obtain rfl : s = t := by simpa [Database.acquire] using h
    exact ⟨Relocked.rfl' s, by simp⟩
  | some lock =>
    simp only [Database.acquire] at h
    split at h
    next hfree =>
      obtain rfl := Option.some.inj h
      refine ⟨⟨rfl, rfl, rfl, le_refl _, fun _ _ h => h, ?_, ?_⟩, by simp⟩
      · intro other holder hlock _
        have hne : other ≠ lock := by
          rintro rfl
          rw [hfree] at hlock
          cases hlock
        simp [Function.update_of_ne hne, hlock]
      · intro hinv
        refine ⟨hinv.single, hinv.fresh, ?_⟩
        intro other holder hlock
        by_cases hother : other = lock
        · subst hother
          obtain rfl : tx = holder := by simpa using hlock
          exact hactive
        · simp only [Function.update_of_ne hother] at hlock
          exact hinv.held other holder hlock
    next holder hheld =>
      split at h
      next hsame =>
        obtain rfl := Option.some.inj h
        subst hsame
        exact ⟨Relocked.rfl' s, by simpa using hheld⟩
      · cases h

theorem relocked_begin (s : Database D) :
    Relocked s { s with active := Function.update s.active s.next true, next := s.next + 1 } where
  fences := rfl
  version := rfl
  data := rfl
  next := Nat.le_succ _
  ended tx hlt h := by
    have hne : tx ≠ s.next := by omega
    simp [Function.update_of_ne hne, h]
  locks _ _ h _ := h
  consistent h := by
    refine ⟨h.single, ?_, ?_⟩
    · intro tx hle
      have hne : tx ≠ s.next := by
        simp only at hle
        omega
      simp only [Function.update_of_ne hne]
      exact h.fresh tx (by simp only at hle; omega)
    · intro name tx hlock
      have hactive := h.held name tx hlock
      by_cases hne : tx = s.next
      · simp [hne]
      · simp [Function.update_of_ne hne, hactive]

end Locks

section Requests

variable {D : Type} {provider : Provider} {s t : Database D}

def FenceOp.IsCommit : FenceOp D → Prop
  | .commit _ => True
  | _ => False

/-- A commit that the warehouse confirms. -/
def Commits : (o : FenceOp D) → FenceReply o → Prop
  | .commit _, .ok _ => True
  | _, _ => False

/-- A step that stores nothing and confirms no commit. -/
structure Ineffective (o : FenceOp D) (s : Database D) (r : FenceReply o) (t : Database D) :
    Prop where
  unchanged : Unchanged s t
  refused : ¬ Commits o r

theorem not_commits_of_not_isCommit {o : FenceOp D} (hcommit : ¬ o.IsCommit) (r : FenceReply o) :
    ¬ Commits o r := by
  cases o with
  | commit session => exact (hcommit trivial).elim
  | _ => exact id

/-- The open transaction of a request that is served. -/
theorem active_of_serve {o : FenceOp D} {a : Payload o}
    (h : serve provider o s = some (.ok a, t)) :
    serveOpen provider o s = some (.ok a, t) ∧
      ∀ tx, o.transaction = some tx → s.active tx = true := by
  unfold serve at h
  split at h
  next hnone => exact ⟨h, by simp [hnone]⟩
  next tx hsome =>
    split at h
    next hactive =>
      refine ⟨h, ?_⟩
      intro other hother
      rw [hsome] at hother
      obtain rfl := Option.some.inj hother
      exact hactive
    · cases h

theorem relocked_updateMatching {session : Session D} {key : FenceKey} {owner : Owner}
    {change : List FenceRow → List FenceRow} {r : Except Fault (ℕ × Session D)}
    (hactive : s.active session.id = true)
    (h : s.updateMatching provider session key owner change = some (r, t)) : Relocked s t := by
  simp only [Database.updateMatching] at h
  split at h
  · obtain ⟨rfl, rfl⟩ := Prod.mk.inj (Option.some.inj h)
    exact Relocked.rfl' _
  · obtain ⟨locked, hlocked, heq⟩ := Option.map_eq_some_iff.mp h
    obtain ⟨rfl, rfl⟩ := Prod.mk.inj heq
    exact (relocked_acquire hactive hlocked).1

theorem relocked_writeClaim {session : Session D} {key : FenceKey} {owner : Owner}
    {rows : List FenceRow} {r : Except Fault (Session D)} (hactive : s.active session.id = true)
    (h : s.writeClaim provider session key owner rows = some (r, t)) : Relocked s t := by
  simp only [Database.writeClaim] at h
  split at h
  · obtain ⟨locked, hlocked, heq⟩ := Option.map_eq_some_iff.mp h
    obtain ⟨rfl, rfl⟩ := Prod.mk.inj heq
    exact (relocked_acquire hactive hlocked).1
  · obtain ⟨rfl, rfl⟩ := Prod.mk.inj (Option.some.inj h)
    exact Relocked.rfl' _

/-- A request that is not a commit leaves everything stored as it is. -/
theorem relocked_serveOpen {o : FenceOp D} {r : FenceReply o} (hcommit : ¬ o.IsCommit)
    (hactive : ∀ tx, o.transaction = some tx → s.active tx = true)
    (h : serveOpen provider o s = some (r, t)) : Relocked s t := by
  cases o with
  | begin =>
    obtain ⟨rfl, rfl⟩ := Prod.mk.inj (Option.some.inj h)
    exact relocked_begin s
  | lock session table =>
    obtain ⟨locked, hlocked, heq⟩ := Option.map_eq_some_iff.mp h
    obtain ⟨rfl, rfl⟩ := Prod.mk.inj heq
    exact (relocked_acquire (hactive _ rfl) hlocked).1
  | selectClaim session key =>
    obtain ⟨rfl, rfl⟩ := Prod.mk.inj (Option.some.inj h)
    exact Relocked.rfl' _
  | insertClaim session key owner => exact relocked_writeClaim (hactive _ rfl) h
  | updateClaim session key owner => exact relocked_writeClaim (hactive _ rfl) h
  | mergeClaim session key owner =>
    simp only [serveOpen] at h
    split at h
    · obtain ⟨locked, hlocked, heq⟩ := Option.map_eq_some_iff.mp h
      have hsame : locked = t := by
        split at heq <;> exact (Prod.mk.inj heq).2
      rw [← hsame]
      exact (relocked_acquire (hactive _ rfl) hlocked).1
    · obtain ⟨rfl, rfl⟩ := Prod.mk.inj (Option.some.inj h)
      exact Relocked.rfl' _
  | touch session key owner => exact relocked_updateMatching (hactive _ rfl) h
  | statement session run =>
    simp only [serveOpen] at h
    split at h
    · obtain ⟨rfl, rfl⟩ := Prod.mk.inj (Option.some.inj h)
      exact Relocked.rfl' _
    · obtain ⟨rfl, rfl⟩ := Prod.mk.inj (Option.some.inj h)
      exact Relocked.rfl' _
  | markCommitted session key owner => exact relocked_updateMatching (hactive _ rfl) h
  | commit session => exact (hcommit trivial).elim
  | rollback tx =>
    obtain ⟨rfl, rfl⟩ := Prod.mk.inj (Option.some.inj h)
    exact relocked_close s tx

theorem relocked_serve {o : FenceOp D} {r : FenceReply o} (hcommit : ¬ o.IsCommit)
    (h : serve provider o s = some (r, t)) : Relocked s t := by
  unfold serve at h
  split at h
  next hnone => exact relocked_serveOpen hcommit (by simp [hnone]) h
  next tx hsome =>
    split at h
    next hactive =>
      apply relocked_serveOpen hcommit _ h
      intro other hother
      rw [hsome] at hother
      obtain rfl := Option.some.inj hother
      exact hactive
    · obtain ⟨rfl, rfl⟩ := Prod.mk.inj (Option.some.inj h)
      exact Relocked.rfl' _

theorem relocked_step {o : FenceOp D} {r : FenceReply o} (hcommit : ¬ o.IsCommit)
    (h : (warehouse provider).step o s r t) : Relocked s t := by
  rcases h with hserved | ⟨fault, rfl, rfl | ⟨reply, hserved⟩ | ⟨tx, -, rfl⟩⟩
  · exact relocked_serve hcommit hserved
  · exact Relocked.rfl' _
  · exact relocked_serve hcommit hserved
  · exact relocked_close s tx

end Requests

section Commits

variable {D : Type} {provider : Provider} {s t : Database D} {session : Session D}

/-- While the session can still commit a change of the key, these rows are stored under it. -/
structure Seen (provider : Provider) (s : Database D) (session : Session D) (key : FenceKey)
    (rows : List FenceRow) : Prop where
  opened : session.id < s.next
  locked : ∀ name, provider.scope key = some name → s.active session.id = true →
    s.locks name = some session.id ∧ s.fences key = rows
  current : provider.scope key = none → session.base key.table ≤ s.version key.table ∧
    (s.version key.table = session.base key.table → s.fences key = rows)

theorem Seen.mono {key : FenceKey} {rows : List FenceRow} (h : Seen provider s session key rows)
    (hle : Moves provider s t) : Seen provider t session key rows where
  opened := lt_of_lt_of_le h.opened hle.next
  locked name hscope hactive := by
    have hbefore : s.active session.id = true := by
      by_contra hnot
      have hended := hle.ended session.id h.opened (by simpa using hnot)
      rw [hactive] at hended
      cases hended
    obtain ⟨hlock, hrows⟩ := h.locked name hscope hbefore
    obtain ⟨hlock', hsame⟩ := hle.locks name session.id hlock h.opened hactive
    exact ⟨hlock', by rw [hsame key hscope, hrows]⟩
  current hscope := by
    obtain ⟨hbase, hrows⟩ := h.current hscope
    obtain ⟨hversion, hsame⟩ := hle.versions key
    refine ⟨le_trans hbase hversion, ?_⟩
    intro heq
    rw [hsame (by omega), hrows (by omega)]

/-- The key a session writes, what was stored under it, and what the session would store. -/
structure Writing (provider : Provider) (s : Database D) (session : Session D) (key : FenceKey)
    (rows later : List FenceRow) : Prop where
  seen : Seen provider s session key rows
  written : session.written.lookup key = some later
  only : ∀ other entry, session.written.lookup other = some entry → other = key
  advances : Advances rows later

theorem Writing.mono {key : FenceKey} {rows later : List FenceRow}
    (h : Writing provider s session key rows later) (hle : Moves provider s t) :
    Writing provider t session key rows later := { h with seen := h.seen.mono hle }

/-- A session may commit what it has not written, or what it writes on what is stored. -/
def MayCommit (provider : Provider) (s : Database D) (session : Session D) : Prop :=
  session.written = [] ∨ ∃ key rows later, Writing provider s session key rows later

theorem MayCommit.mono (h : MayCommit provider s session) (hle : Moves provider s t) :
    MayCommit provider t session := by
  rcases h with hnone | ⟨key, rows, later, hwriting⟩
  · exact .inl hnone
  · exact .inr ⟨key, rows, later, hwriting.mono hle⟩

theorem scope_eq_none {key : FenceKey} : provider.scope key = none ↔ provider = .bigquery := by
  cases provider <;> simp [Provider.scope]

theorem Session.isCurrent_of_lookup {key : FenceKey} {rows : List FenceRow}
    (h : session.isCurrent s = true) (hlookup : session.written.lookup key = some rows) :
    s.version key.table = session.base key.table := by
  obtain ⟨before, after, hwritten, -⟩ := List.lookup_eq_some_iff.mp hlookup
  have hmem : (key, rows) ∈ session.written := by simp [hwritten]
  simpa using List.all_eq_true.mp h _ hmem

/-- A session that is about to commit sees what is stored. -/
theorem Writing.stored {key : FenceKey} {rows later : List FenceRow}
    (h : Writing provider s session key rows later) (hactive : s.active session.id = true)
    (hcurrent : provider = .bigquery → session.isCurrent s = true) : s.fences key = rows := by
  cases hscope : provider.scope key with
  | none =>
    apply (h.seen.current hscope).2
    exact Session.isCurrent_of_lookup (hcurrent (scope_eq_none.mp hscope)) h.written
  | some name => exact (h.seen.locked name hscope hactive).2

/-- The state that a commit leaves when it is applied. -/
structure Applied (provider : Provider) (s : Database D) (session : Session D) (t : Database D) :
    Prop where
  active : s.active session.id = true
  current : provider = .bigquery → session.isCurrent s = true
  state : ∃ data, t = (s.applied session data).close session.id

theorem commit_cases {r : FenceReply (.commit session)}
    (h : serve provider (.commit session) s = some (r, t)) :
    Relocked s t ∧ (∀ a, r ≠ .ok a) ∨ r = .ok () ∧ Applied provider s session t := by
  simp only [serve, FenceOp.transaction] at h
  split at h
  next hactive =>
    simp only [serveOpen, Database.commit] at h
    split at h
    · obtain ⟨rfl, rfl⟩ := Prod.mk.inj (Option.some.inj h)
      exact .inl ⟨relocked_close s _, nofun⟩
    next hcurrent =>
      split at h
      · obtain ⟨rfl, rfl⟩ := Prod.mk.inj (Option.some.inj h)
        exact .inl ⟨relocked_close s _, nofun⟩
      next data _ =>
        obtain ⟨rfl, rfl⟩ := Prod.mk.inj (Option.some.inj h)
        refine .inr ⟨rfl, hactive, ?_, data, rfl⟩
        intro hbigquery
        simpa [hbigquery] using hcurrent
  · obtain ⟨rfl, rfl⟩ := Prod.mk.inj (Option.some.inj h)
    exact .inl ⟨Relocked.rfl' _, nofun⟩

theorem commit_step_cases {r : FenceReply (.commit session)}
    (h : (warehouse provider).step (.commit session) s r t) :
    Relocked s t ∧ (∀ a, r ≠ .ok a) ∨ Applied provider s session t := by
  rcases h with hserved | ⟨fault, rfl, rfl | ⟨reply, hserved⟩ | ⟨tx, -, rfl⟩⟩
  · rcases commit_cases hserved with hsame | ⟨-, happlied⟩
    · exact .inl hsame
    · exact .inr happlied
  · exact .inl ⟨Relocked.rfl' _, nofun⟩
  · rcases commit_cases hserved with hsame | ⟨-, happlied⟩
    · exact .inl ⟨hsame.1, nofun⟩
    · exact .inr happlied
  · exact .inl ⟨relocked_close s tx, nofun⟩

/-- The stored rows after a commit. -/
theorem Applied.fences (h : Applied provider s session t) (key : FenceKey) :
    t.fences key = (session.written.lookup key).getD (s.fences key) := by
  obtain ⟨data, rfl⟩ := h.state
  rfl

theorem table_mem_of_lookup {key : FenceKey} {rows : List FenceRow}
    (h : session.written.lookup key = some rows) :
    key.table ∈ session.written.map (fun entry => entry.1.table) := by
  obtain ⟨before, after, hwritten, -⟩ := List.lookup_eq_some_iff.mp h
  simp [hwritten]

/-- A commit stores rows only where its session writes on what is stored. -/
theorem Applied.advances (h : Applied provider s session t) (hmay : MayCommit provider s session)
    {key : FenceKey} {later : List FenceRow} (hlookup : session.written.lookup key = some later) :
    Advances (s.fences key) later ∧
      ∀ name, provider.scope key = some name → s.locks name = some session.id := by
  rcases hmay with hnone | ⟨other, rows, rows', hwriting⟩
  · rw [hnone] at hlookup
    cases hlookup
  · obtain rfl := hwriting.only key later hlookup
    have hlater : rows' = later := by
      have hwritten := hwriting.written
      rw [hlookup] at hwritten
      exact (Option.some.inj hwritten).symm
    subst hlater
    rw [hwriting.stored h.active h.current]
    exact ⟨hwriting.advances, fun name hscope =>
      (hwriting.seen.locked name hscope h.active).1⟩

theorem Applied.moves (h : Applied provider s session t) (hmay : MayCommit provider s session) :
    Moves provider s t := by
  have hclosed := h.state
  obtain ⟨data, ht⟩ := hclosed
  have hother : ∀ tx, t.active tx = true → tx ≠ session.id := by
    rintro tx hactive rfl
    simp [ht, Database.close] at hactive
  refine ⟨?_, ?_, ?_, ?_, ?_⟩
  · intro key row hmem
    rw [h.fences key]
    cases hlookup : session.written.lookup key with
    | none => exact ⟨row, by simpa using hmem, le_refl _⟩
    | some later =>
      obtain ⟨row', hmem', -, -, hle⟩ := (h.advances hmay hlookup).1.advances row hmem
      exact ⟨row', by simpa using hmem', hle⟩
  · simp [ht, Database.close, Database.applied]
  · intro tx hlt hended
    rw [ht]
    exact (relocked_close (s.applied session data) session.id).ended tx hlt hended
  · intro name tx hlock hlt hactive
    constructor
    · rw [ht] at hactive ⊢
      exact (relocked_close (s.applied session data) session.id).locks name tx hlock hactive
    · intro key hscope
      rw [h.fences key]
      cases hlookup : session.written.lookup key with
      | none => rfl
      | some later =>
        have hmine := (h.advances hmay hlookup).2 name hscope
        rw [hlock] at hmine
        exact (hother tx hactive (Option.some.inj hmine)).elim
  · intro key
    have hversion : t.version key.table =
        if key.table ∈ session.written.map (fun entry => entry.1.table) then
          s.version key.table + 1 else s.version key.table := by
      rw [ht]
      rfl
    rw [hversion]
    split
    · exact ⟨by omega, fun hsame => by omega⟩
    next hnot =>
      refine ⟨le_refl _, fun _ => ?_⟩
      rw [h.fences key]
      cases hlookup : session.written.lookup key with
      | none => rfl
      | some later => exact (hnot (table_mem_of_lookup hlookup)).elim

theorem Applied.consistent (h : Applied provider s session t)
    (hmay : MayCommit provider s session) (hinv : Consistent s) : Consistent t := by
  obtain ⟨data, ht⟩ := h.state
  have hclosed : Consistent { s with
      locks := ((s.applied session data).close session.id).locks
      active := ((s.applied session data).close session.id).active } :=
    (relocked_close s session.id).consistent hinv
  refine ⟨?_, ?_, ?_⟩
  · intro key
    rw [h.fences key]
    cases hlookup : session.written.lookup key with
    | none => exact hinv.single key
    | some later => exact (h.advances hmay hlookup).1.single
  · rw [ht]
    exact hclosed.fresh
  · rw [ht]
    exact hclosed.held

end Commits

section Programs

variable {D : Type} {provider : Provider} {s t : Database D} {session : Session D} {α β : Type}

/-- The promise of everything but a commit. -/
def Quiet : Promise (FenceOp D) FenceReply FenceError α (Database D) :=
  fun o s r t _ => Ineffective o s r t

/-- A program that only makes other requests than commits. -/
def QuietUntil (provider : Provider) (Q : α → Database D → Prop) (p : FenceAction D α)
    (s : Database D) : Prop :=
  Guarded (warehouse provider) (fenceDiscipline D provider) Quiet Q (fun _ _ => True) p s

/-- A program whose steps promise nothing beyond the discipline. -/
def Claims (provider : Provider) (Q : α → Database D → Prop) (p : FenceAction D α)
    (s : Database D) : Prop :=
  Guarded (warehouse provider) (fenceDiscipline D provider) (fun _ _ _ _ _ => True) Q
    (fun _ _ => True) p s

theorem quietUntil_request {o : FenceOp D} {Q : Payload o → Database D → Prop}
    (hcommit : ¬ o.IsCommit)
    (hok : ∀ t u a, Moves provider s t → Consistent t → serve provider o t = some (.ok a, u) →
      Moves provider t u → Q a u) :
    QuietUntil provider Q (.call o (fun reply : Except Fault (Payload o) => liftReply reply)) s := by
  intro t ht hinv r u hstep
  have hrelocked := relocked_step hcommit hstep
  refine ⟨hrelocked.consistent hinv, hrelocked.moves,
    ⟨hrelocked.unchanged, not_commits_of_not_isCommit hcommit r⟩, ?_⟩
  cases r with
  | error fault => trivial
  | ok a =>
    rcases hstep with hserved | ⟨fault, hfault, -⟩
    · exact hok t u a ht hinv hserved hrelocked.moves
    · cases hfault

theorem QuietUntil.bind {Q : α → Database D → Prop} {R : β → Database D → Prop}
    {p : FenceAction D α} {f : α → FenceAction D β} (hp : QuietUntil provider Q p s)
    (hf : ∀ a t, Moves provider s t → Q a t → QuietUntil provider R (f a) t) :
    QuietUntil provider R (p >>= f) s :=
  Guarded.bind hp (fun _ _ _ _ _ h => h) hf

theorem QuietUntil.claims {Q : α → Database D → Prop} {R : β → Database D → Prop}
    {p : FenceAction D α} {f : α → FenceAction D β} (hp : QuietUntil provider Q p s)
    (hf : ∀ a t, Moves provider s t → Q a t → Claims provider R (f a) t) :
    Claims provider R (p >>= f) s :=
  Guarded.bind hp (fun _ _ _ _ _ _ => trivial) hf

theorem Claims.bind {Q : α → Database D → Prop} {R : β → Database D → Prop}
    {p : FenceAction D α} {f : α → FenceAction D β} (hp : Claims provider Q p s)
    (hf : ∀ a t, Moves provider s t → Q a t → Claims provider R (f a) t) :
    Claims provider R (p >>= f) s :=
  Guarded.bind hp (fun _ _ _ _ _ _ => trivial) hf

theorem Claims.tryCatch {Q : α → Database D → Prop} {p : FenceAction D α}
    {h : FenceError → FenceAction D α} (hp : Claims provider Q p s)
    (hh : ∀ e t, Claims provider Q (h e) t) : Claims provider Q (p.tryCatch h) s :=
  Guarded.tryCatch hp (fun _ _ _ _ _ _ => trivial) (fun e t _ _ => hh e t)

/-- A session that has just begun: nothing written, and a snapshot of what is stored. -/
structure Opened (provider : Provider) (session : Session D) (s : Database D) : Prop where
  opened : session.id < s.next
  written : session.written = []
  single : ∀ key, (session.snapshot key).length ≤ 1
  current : ∀ key : FenceKey, session.base key.table ≤ s.version key.table ∧
    (s.version key.table = session.base key.table → s.fences key = session.snapshot key)

theorem Opened.mono (h : Opened provider session s) (hle : Moves provider s t) :
    Opened provider session t where
  opened := lt_of_lt_of_le h.opened hle.next
  written := h.written
  single := h.single
  current key := by
    obtain ⟨hbase, hrows⟩ := h.current key
    obtain ⟨hversion, hsame⟩ := hle.versions key
    refine ⟨le_trans hbase hversion, ?_⟩
    intro heq
    rw [hsame (by omega), hrows (by omega)]

theorem quietUntil_begin :
    QuietUntil provider (Opened provider) (beginTransaction : FenceAction D (Session D)) s := by
  apply quietUntil_request (o := FenceOp.begin) id
  intro t u a _ hinv hserved _
  obtain ⟨ha, rfl⟩ := Prod.mk.inj (Option.some.inj hserved)
  obtain rfl := Except.ok.inj ha
  exact ⟨Nat.lt_succ_self _, rfl, hinv.single, fun key => ⟨le_refl _, fun _ => rfl⟩⟩

/-- What a session reads before it has written anything. -/
theorem Opened.rows (h : Opened provider session s) (key : FenceKey) :
    session.rows provider s key =
      if provider = .bigquery then session.snapshot key else s.fences key := by
  simp [Session.rows, h.written]

theorem Opened.rows_single (h : Opened provider session s) (hinv : Consistent s) (key : FenceKey) :
    (session.rows provider s key).length ≤ 1 := by
  rw [h.rows key]
  split
  · exact h.single key
  · exact hinv.single key

/-- The rows that a session reads when it takes the lock of a key are seen from then on. -/
theorem Opened.seen (h : Opened provider session s) {key : FenceKey}
    (hlock : s.acquire session.id (provider.scope key) = some t)
    (hactive : s.active session.id = true) :
    Seen provider t session key (session.rows provider s key) := by
  obtain ⟨hrelocked, hheld⟩ := relocked_acquire hactive hlock
  have hmoves : Moves provider s t := hrelocked.moves
  refine ⟨lt_of_lt_of_le h.opened hmoves.next, ?_, ?_⟩
  · intro name hscope _
    refine ⟨hheld name hscope, ?_⟩
    have hnot : provider ≠ .bigquery := by
      rintro rfl
      cases hscope
    rw [h.rows key, if_neg hnot, hrelocked.fences]
  · intro hscope
    rw [h.rows key, if_pos (scope_eq_none.mp hscope), hrelocked.fences, hrelocked.version]
    exact h.current key

/-- The first write of a session. -/
theorem Opened.write (h : Opened provider session s) {key : FenceKey} {later : List FenceRow}
    (hlock : s.acquire session.id (provider.scope key) = some t)
    (hactive : s.active session.id = true)
    (hadvances : Advances (session.rows provider s key) later) :
    Writing provider t (session.write key later) key (session.rows provider s key) later := by
  have hseen := h.seen hlock hactive
  refine ⟨⟨hseen.opened, hseen.locked, hseen.current⟩, ?_, ?_, hadvances⟩
  · simp [Session.write]
  · intro other entry hlookup
    by_contra hne
    have hbeq : (other == key) = false := by simpa using hne
    simp [Session.write, List.lookup, hbeq, h.written] at hlookup

theorem advances_refl {rows : List FenceRow} (h : rows.length ≤ 1) : Advances rows rows :=
  ⟨h, fun row hmem => ⟨row, hmem, rfl, rfl, le_refl _⟩⟩

theorem claimIsAllowed_iff {current incoming : Owner} :
    claimIsAllowed current incoming = true ↔
      (current.authorityId = incoming.authorityId ∧
        current.authorityEpoch = incoming.authorityEpoch) ∧
      (current.fencingToken < incoming.fencingToken ∨
        current.fencingToken = incoming.fencingToken ∧ current.runId = incoming.runId) := by
  simp [claimIsAllowed]

/-- A claim that is allowed replaces the row of an older or equal token. -/
theorem advances_claimed {current : FenceRow} {owner : Owner}
    (h : claimIsAllowed current.owner owner = true) :
    Advances [current] [⟨owner, .claimed⟩] := by
  obtain ⟨⟨hauthority, hepoch⟩, htoken⟩ := claimIsAllowed_iff.mp h
  refine ⟨by simp, ?_⟩
  intro row hmem
  obtain rfl := List.mem_singleton.mp hmem
  refine ⟨_, List.mem_singleton_self _, hauthority.symm, hepoch.symm, ?_⟩
  rcases htoken with hlt | ⟨heq, -⟩
  · exact le_of_lt hlt
  · exact le_of_eq heq

/-- At most one row: none, or one. -/
theorem rows_cases {rows : List FenceRow} (h : rows.length ≤ 1) :
    rows = [] ∨ ∃ row, rows = [row] := by
  match rows with
  | [] => exact .inl rfl
  | [row] => exact .inr ⟨row, rfl⟩
  | _ :: _ :: _ => simp at h

theorem advances_mergeRows {rows : List FenceRow} {owner : Owner} (h : rows.length ≤ 1)
    (hcount : (mergeRows owner rows).2 ≠ 0) :
    (mergeRows owner rows).1 = [⟨owner, .claimed⟩] ∧
      Advances rows (mergeRows owner rows).1 := by
  rcases rows_cases h with rfl | ⟨row, rfl⟩
  · exact ⟨rfl, by simp [mergeRows], by simp⟩
  · have hallowed : claimIsAllowed row.owner owner = true := by
      by_contra hnot
      simp [mergeRows, hnot] at hcount
    have hmerged : (mergeRows owner [row]).1 = [⟨owner, .claimed⟩] := by
      simp [mergeRows, hallowed]
    rw [hmerged]
    exact ⟨rfl, advances_claimed hallowed⟩

theorem advances_markRows {rows : List FenceRow} (owner : Owner) (h : rows.length ≤ 1) :
    Advances rows (markRows owner rows) := by
  refine ⟨by simpa [markRows] using h, ?_⟩
  intro row hmem
  refine ⟨_, List.mem_map_of_mem hmem, ?_⟩
  split <;> exact ⟨rfl, rfl, le_refl _⟩

end Programs

section Claiming

variable {D : Type} {provider : Provider} {s t : Database D} {session : Session D}

/-- The session would store the owner's claim. -/
def Claiming (provider : Provider) (session : Session D) (key : FenceKey) (owner : Owner)
    (s : Database D) : Prop :=
  ∃ rows, Writing provider s session key rows [⟨owner, .claimed⟩]

/-- The stored row has at least this token. -/
def Reaches (key : FenceKey) (token : ℤ) (s : Database D) : Prop :=
  ∃ row ∈ s.fences key, token ≤ row.owner.fencingToken

theorem Reaches.mono {key : FenceKey} {token : ℤ} (h : Reaches key token s)
    (hle : Moves provider s t) : Reaches key token t := by
  obtain ⟨row, hmem, htoken⟩ := h
  obtain ⟨row', hmem', hle'⟩ := hle.tokens key row hmem
  exact ⟨row', hmem', le_trans htoken hle'⟩

theorem quietUntil_mergeClaim {key : FenceKey} {owner : Owner}
    (h : Opened provider session s) :
    QuietUntil provider (fun merged u => (merged.1 = 0 ∧ merged.2 = session) ∨
      (merged.1 ≠ 0 ∧ Claiming provider merged.2 key owner u)) (mergeClaim session key owner) s := by
  apply quietUntil_request (o := FenceOp.mergeClaim session key owner) id
  intro t u merged ht hinv hserved _
  obtain ⟨hopen, hactive⟩ := active_of_serve hserved
  have hactive := hactive session.id rfl
  have hopened := h.mono ht
  simp only [serveOpen] at hopen
  split at hopen
  · obtain ⟨locked, hlocked, heq⟩ := Option.map_eq_some_iff.mp hopen
    split at heq
    · obtain ⟨hmerged, rfl⟩ := Prod.mk.inj heq
      obtain rfl := Except.ok.inj hmerged
      exact .inl ⟨rfl, rfl⟩
    next hcount =>
      obtain ⟨hmerged, rfl⟩ := Prod.mk.inj heq
      obtain rfl := Except.ok.inj hmerged
      obtain ⟨hrows, hadvances⟩ :=
        advances_mergeRows (hopened.rows_single hinv key) hcount
      rw [hrows] at hadvances ⊢
      exact .inr ⟨hcount, _, hopened.write hlocked hactive hadvances⟩
  · cases hopen

/-- A commit that returns was applied. -/
theorem claims_commit {Q : Database D → Prop} (hmay : MayCommit provider s session)
    (hQ : ∀ t u, Applied provider t session u → Q u) :
    Claims provider (fun _ u => Q u) (commitTransaction session) s := by
  intro t ht hinv r u hstep
  have hmay' := hmay.mono ht
  rcases commit_step_cases hstep with ⟨hrelocked, hfailed⟩ | happlied
  · refine ⟨hrelocked.consistent hinv, hrelocked.moves, trivial, ?_⟩
    cases r with
    | error fault => trivial
    | ok a => exact (hfailed a rfl).elim
  · refine ⟨happlied.consistent hmay' hinv, happlied.moves hmay', trivial, ?_⟩
    cases r with
    | error fault => trivial
    | ok a => exact hQ t u happlied

theorem Claiming.mayCommit {key : FenceKey} {owner : Owner}
    (h : Claiming provider session key owner s) : MayCommit provider s session := by
  obtain ⟨rows, hwriting⟩ := h
  exact .inr ⟨key, rows, _, hwriting⟩

/-- The commit of a claim stores its token. -/
theorem Claiming.commit {key : FenceKey} {owner : Owner}
    (h : Claiming provider session key owner s) :
    Claims provider (fun _ u => Reaches key owner.fencingToken u) (commitTransaction session) s := by
  apply claims_commit h.mayCommit
  intro t u happlied
  obtain ⟨rows, hwriting⟩ := h
  refine ⟨⟨owner, .claimed⟩, ?_, le_refl _⟩
  rw [happlied.fences key, hwriting.written]
  simp

theorem claims_rollbackAndRaise {α : Type} {Q : α → Database D → Prop} (tx : ℕ) (e : FenceError) :
    Claims provider Q (rollbackAndRaise tx e) s := by
  have hrollback : QuietUntil provider (fun _ _ => True)
      (rollbackTransaction tx : FenceAction D Unit) s :=
    quietUntil_request (o := FenceOp.rollback tx) id (fun _ _ _ _ _ _ _ => trivial)
  exact hrollback.claims (fun _ _ _ _ => trivial)

theorem claims_returnFence {target : RelationRef} {fence : FencingToken}
    {Q : Database D → Prop} (h : Q s) :
    Claims provider (fun fence' u => fence' = targetFence provider target fence ∧ Q u)
      (returnFence provider target fence) s := by
  unfold returnFence
  cases (targetFence provider target fence).postInit with
  | error e => trivial
  | ok _ => exact ⟨rfl, h⟩

/-- What a claim promises when it returns. -/
def ClaimReturned (provider : Provider) (target : RelationRef) (fence : FencingToken)
    (returned : TargetFence) (s : Database D) : Prop :=
  returned = targetFence provider target fence ∧ Reaches (claimKey provider target fence) fence.token s

/-- A merge and its commit. -/
theorem claims_merge {key : FenceKey} {owner : Owner} (h : Opened provider session s) :
    Claims provider (fun count u => count ≠ 0 → Reaches key owner.fencingToken u)
      (mergeClaim session key owner >>= fun merged =>
        commitTransaction merged.2 >>= fun _ => .ret merged.1) s := by
  apply (quietUntil_mergeClaim h).claims
  rintro ⟨count, session'⟩ t ht hmerged
  rcases hmerged with ⟨rfl, rfl⟩ | ⟨-, hclaiming⟩
  · refine (claims_commit (Q := fun _ => True) (.inl h.written) (fun _ _ _ => trivial)).bind ?_
    intro _ u _ _ hcount
    exact (hcount rfl).elim
  · refine hclaiming.commit.bind ?_
    intro _ u _ hreaches _
    exact hreaches

theorem claims_postgresqlClaim {catalog : String} {target : RelationRef} {fence : FencingToken} :
    Claims .postgresql (ClaimReturned .postgresql target fence)
      (postgresqlClaim catalog target fence) s := by
  unfold postgresqlClaim
  split
  · trivial
  · apply QuietUntil.claims quietUntil_begin
    intro session t _ hopened
    refine Claims.bind (Claims.tryCatch (claims_merge hopened)
      (fun e u => claims_rollbackAndRaise session.id e)) ?_
    intro count u _ hreaches
    split
    · trivial
    next hcount => exact claims_returnFence (hreaches hcount)

theorem claims_snowflakeClaim {catalog : String} {target : RelationRef} {fence : FencingToken} :
    Claims .snowflake (ClaimReturned .snowflake target fence)
      (snowflakeClaim catalog target fence) s := by
  unfold snowflakeClaim
  split
  · trivial
  · apply QuietUntil.claims quietUntil_begin
    intro session t _ hopened
    have hmerge : Claims .snowflake
        (fun _ u => Reaches (claimKey .snowflake target fence) fence.token u)
        (mergeClaim session (claimKey .snowflake target fence) (FencingToken.owner fence) >>=
          fun merged => if merged.1 = 0 then .raise (claimLost target)
            else commitTransaction merged.2) t := by
      apply (quietUntil_mergeClaim hopened).claims
      rintro ⟨count, session'⟩ u _ hmerged
      simp only
      split
      · trivial
      next hcount =>
        rcases hmerged with ⟨hzero, -⟩ | ⟨-, hclaiming⟩
        · exact (hcount hzero).elim
        · exact hclaiming.commit
    refine Claims.bind (Claims.tryCatch hmerge
      (fun e u => claims_rollbackAndRaise session.id e)) ?_
    intro _ u _ hreaches
    exact claims_returnFence hreaches

theorem claims_submitMerge {key : FenceKey} {owner : Owner} :
    Claims provider (fun count u => count ≠ 0 → Reaches key owner.fencingToken u)
      (submitMerge key owner) s := by
  apply QuietUntil.claims quietUntil_begin
  intro session t _ hopened
  exact Claims.tryCatch (claims_merge hopened) (fun e u => claims_rollbackAndRaise session.id e)

theorem claims_runMutationWithRetry {α : Type} {Q : α → Database D → Prop}
    {submit : FenceAction D α} (h : ∀ t, Claims provider Q submit t) (more : ℕ) :
    Claims provider Q (runMutationWithRetry submit more) s := by
  induction more generalizing s with
  | zero => exact h s
  | succ more ih =>
    apply Claims.tryCatch (h s)
    intro e t
    split
    · exact ih
    · trivial

theorem claims_bigqueryClaim {catalog : String} {target : RelationRef} {fence : FencingToken} :
    Claims .bigquery (ClaimReturned .bigquery target fence)
      (bigqueryClaim catalog target fence) s := by
  unfold bigqueryClaim
  split
  · trivial
  · apply (claims_runMutationWithRetry (fun t => claims_submitMerge) 4).bind
    intro count u _ hreaches
    split
    · trivial
    next hcount => exact claims_returnFence (hreaches (by omega))

/-- The session holds the table lock, and these rows are stored under the key. -/
structure Locked (session : Session D) (key : FenceKey) (rows : List FenceRow) (s : Database D) :
    Prop where
  opened : Opened .redshift session s
  seen : Seen .redshift s session key rows
  single : rows.length ≤ 1

theorem Locked.mono {key : FenceKey} {rows : List FenceRow} (h : Locked session key rows s)
    (hle : Moves .redshift s t) : Locked session key rows t :=
  ⟨h.opened.mono hle, h.seen.mono hle, h.single⟩

theorem Locked.rows {key : FenceKey} {rows : List FenceRow} (h : Locked session key rows s)
    (hactive : s.active session.id = true) : session.rows .redshift s key = rows := by
  rw [h.opened.rows key]
  exact (h.seen.locked _ rfl hactive).2

theorem quietUntil_lockTable {key : FenceKey} (h : Opened .redshift session s) :
    QuietUntil .redshift (fun _ u => ∃ rows, Locked session key rows u)
      (lockTable session key.table) s := by
  apply quietUntil_request (o := FenceOp.lock session key.table) id
  intro t u _ ht hinv hserved hmoves
  obtain ⟨hopen, hactive⟩ := active_of_serve hserved
  have hactive := hactive session.id rfl
  have hopened := h.mono ht
  obtain ⟨locked, hlocked, heq⟩ := Option.map_eq_some_iff.mp hopen
  obtain ⟨-, rfl⟩ := Prod.mk.inj heq
  exact ⟨_, hopened.mono hmoves, hopened.seen hlocked hactive, hopened.rows_single hinv key⟩

theorem quietUntil_selectClaim {key : FenceKey} {rows : List FenceRow}
    (h : Locked session key rows s) :
    QuietUntil .redshift
      (fun current u => Locked session key rows u ∧ current = rows.head?.map FenceRow.owner)
      (selectClaim session key) s := by
  apply quietUntil_request (o := FenceOp.selectClaim session key) id
  intro t u current ht _ hserved hmoves
  obtain ⟨hopen, hactive⟩ := active_of_serve hserved
  have hlocked := h.mono ht
  obtain ⟨hcurrent, rfl⟩ := Prod.mk.inj (Option.some.inj hopen)
  have hrows := hlocked.rows (hactive session.id rfl)
  refine ⟨hlocked, ?_⟩
  rw [← hrows]
  exact (Except.ok.inj hcurrent).symm

/-- An insert or update of the claimed row, on the rows that were locked. -/
theorem Locked.writeClaim {key : FenceKey} {rows : List FenceRow} {owner : Owner}
    (h : Locked session key rows s) {u : Database D} {session' : Session D}
    (hactive : s.active session.id = true) (hadvances : Advances rows [⟨owner, .claimed⟩])
    (hwrite : s.writeClaim .redshift session key owner [⟨owner, .claimed⟩] =
      some (.ok session', u)) :
    Claiming .redshift session' key owner u := by
  simp only [Database.writeClaim] at hwrite
  split at hwrite
  · obtain ⟨locked, hlocked, heq⟩ := Option.map_eq_some_iff.mp hwrite
    obtain ⟨hsession, rfl⟩ := Prod.mk.inj heq
    obtain rfl := Except.ok.inj hsession
    have hrows := h.rows hactive
    rw [← hrows] at hadvances
    exact ⟨_, h.opened.write hlocked hactive hadvances⟩
  · cases hwrite

theorem quietUntil_claimLocked {target : RelationRef} {key : FenceKey} {owner : Owner}
    (h : Opened .redshift session s) :
    QuietUntil .redshift (fun session' u => Claiming .redshift session' key owner u)
      (claimLocked session target key owner) s := by
  apply (quietUntil_lockTable h).bind
  rintro _ t _ ⟨rows, hlocked⟩
  apply (quietUntil_selectClaim hlocked).bind
  rintro current u _ ⟨hlocked, rfl⟩
  rcases rows_cases hlocked.single with rfl | ⟨row, rfl⟩
  · apply quietUntil_request (o := FenceOp.insertClaim session key owner) id
    intro v w session' hv _ hserved _
    obtain ⟨hopen, hactive⟩ := active_of_serve hserved
    have hactive := hactive session.id rfl
    have hlocked := hlocked.mono hv
    apply hlocked.writeClaim hactive ⟨by simp, by simp⟩
    simp only [serveOpen, hlocked.rows hactive, List.nil_append] at hopen
    exact hopen
  · simp only [List.head?_cons, Option.map_some]
    split
    next hallowed =>
      apply quietUntil_request (o := FenceOp.updateClaim session key owner) id
      intro v w session' hv _ hserved _
      obtain ⟨hopen, hactive⟩ := active_of_serve hserved
      have hactive := hactive session.id rfl
      have hlocked := hlocked.mono hv
      apply hlocked.writeClaim hactive (advances_claimed hallowed)
      simp only [serveOpen, hlocked.rows hactive, List.map_cons, List.map_nil] at hopen
      exact hopen
    · trivial

theorem claims_redshiftClaim {catalog : String} {target : RelationRef} {fence : FencingToken} :
    Claims .redshift (ClaimReturned .redshift target fence)
      (redshiftClaim catalog target fence) s := by
  unfold redshiftClaim
  cases validateRedshiftRelation target with
  | error e => trivial
  | ok _ =>
    simp only [liftValue, Prog.ret_bind]
    split
    · trivial
    · apply QuietUntil.claims quietUntil_begin
      intro session t _ hopened
      have hclaim : Claims .redshift
          (fun _ u => Reaches (claimKey .redshift target fence) fence.token u)
          (claimLocked session target (claimKey .redshift target fence)
            (FencingToken.owner fence) >>= commitTransaction) t := by
        apply (quietUntil_claimLocked hopened).claims
        intro session' u _ hclaiming
        exact hclaiming.commit
      refine Claims.bind (Claims.tryCatch hclaim
        (fun e u => claims_rollbackAndRaise session.id e)) ?_
      intro _ u _ hreaches
      exact claims_returnFence hreaches

/-- A claim that returns has stored a row with at least its token. -/
theorem claims_claim {catalog : String} {target : RelationRef} {fence : FencingToken} :
    Claims provider (ClaimReturned provider target fence) (claim provider catalog target fence) s := by
  cases provider with
  | postgresql => exact claims_postgresqlClaim
  | redshift => exact claims_redshiftClaim
  | snowflake => exact claims_snowflakeClaim
  | bigquery => exact claims_bigqueryClaim

end Claiming

section Publishing

variable {D : Type} {provider : Provider} {s t : Database D} {session : Session D}

/-- The session writes on a stored row of the owner. -/
def Publishing (provider : Provider) (session : Session D) (key : FenceKey) (owner : Owner)
    (s : Database D) : Prop :=
  ∃ rows later, Writing provider s session key rows later ∧ ∃ row ∈ rows, row.owner = owner

theorem Publishing.mono {key : FenceKey} {owner : Owner}
    (h : Publishing provider session key owner s) (hle : Moves provider s t) :
    Publishing provider session key owner t := by
  obtain ⟨rows, later, hwriting, howner⟩ := h
  exact ⟨rows, later, hwriting.mono hle, howner⟩

theorem exists_owner_of_countP {rows : List FenceRow} {owner : Owner}
    (h : rows.countP (targetMatch owner) ≠ 0) : ∃ row ∈ rows, row.owner = owner := by
  obtain ⟨row, hmem, hmatch⟩ := List.countP_pos_iff.mp (Nat.pos_of_ne_zero h)
  rw [targetMatch, Bool.and_eq_true] at hmatch
  exact ⟨row, hmem, of_decide_eq_true hmatch.1⟩

theorem quietUntil_touchFence {key : FenceKey} {owner : Owner} (h : Opened provider session s) :
    QuietUntil provider (fun touched u => touched.1 = 0 ∨
      Publishing provider touched.2 key owner u) (touchFence session key owner) s := by
  apply quietUntil_request (o := FenceOp.touch session key owner) id
  intro t u touched ht hinv hserved _
  obtain ⟨hopen, hactive⟩ := active_of_serve hserved
  have hactive := hactive session.id rfl
  have hopened := h.mono ht
  simp only [serveOpen, Database.updateMatching] at hopen
  split at hopen
  · obtain ⟨htouched, -⟩ := Prod.mk.inj (Option.some.inj hopen)
    obtain rfl := Except.ok.inj htouched
    exact .inl rfl
  next hcount =>
    obtain ⟨locked, hlocked, heq⟩ := Option.map_eq_some_iff.mp hopen
    obtain ⟨htouched, rfl⟩ := Prod.mk.inj heq
    obtain rfl := Except.ok.inj htouched
    have hadvances := advances_refl (hopened.rows_single hinv key)
    exact .inr ⟨_, _, hopened.write hlocked hactive hadvances, exists_owner_of_countP hcount⟩

theorem quietUntil_runStatements {key : FenceKey} {owner : Owner}
    (statements : List (D → Option D)) (h : Publishing provider session key owner s) :
    QuietUntil provider (fun session' u => Publishing provider session' key owner u)
      (runStatements session statements) s := by
  induction statements generalizing session s with
  | nil => exact h
  | cons statement rest ih =>
    have hstatement : QuietUntil provider
        (fun session' u => Publishing provider session' key owner u)
        (.call (.statement session statement) fun (reply : Except Fault (Session D)) =>
          liftReply reply) s := by
      apply quietUntil_request (o := FenceOp.statement session statement) id
      intro t u session' ht _ hserved hmoves
      obtain ⟨rows, later, hwriting, howner⟩ := (h.mono ht).mono hmoves
      obtain ⟨hopen, -⟩ := active_of_serve hserved
      simp only [serveOpen] at hopen
      split at hopen
      · cases hopen
      · obtain ⟨hsession, rfl⟩ := Prod.mk.inj (Option.some.inj hopen)
        obtain rfl := Except.ok.inj hsession
        exact ⟨rows, later, ⟨⟨hwriting.seen.opened, hwriting.seen.locked, hwriting.seen.current⟩,
          hwriting.written, hwriting.only, hwriting.advances⟩, howner⟩
    exact hstatement.bind (fun session' t _ hpublishing => ih hpublishing)

/-- A further write of the key that the session writes already. -/
theorem Writing.write {key : FenceKey} {rows later newest : List FenceRow}
    (h : Writing provider s session key rows later) (hadvances : Advances rows newest) :
    Writing provider s (session.write key newest) key rows newest := by
  refine ⟨⟨h.seen.opened, h.seen.locked, h.seen.current⟩, by simp [Session.write], ?_, hadvances⟩
  intro other entry hlookup
  by_cases hother : other = key
  · exact hother
  · have hbeq : (other == key) = false := by simpa using hother
    simp only [Session.write, List.lookup, hbeq] at hlookup
    exact h.only other entry hlookup

theorem Advances.markRows {rows later : List FenceRow} (h : Advances rows later) (owner : Owner) :
    Advances rows (markRows owner later) := by
  have hmark := advances_markRows owner h.single
  refine ⟨hmark.single, ?_⟩
  intro row hmem
  obtain ⟨row', hmem', hauthority, hepoch, htoken⟩ := h.advances row hmem
  obtain ⟨row'', hmem'', hauthority', hepoch', htoken'⟩ := hmark.advances row' hmem'
  exact ⟨row'', hmem'', hauthority'.trans hauthority, hepoch'.trans hepoch,
    le_trans htoken htoken'⟩

theorem quietUntil_markCommitted {key : FenceKey} {owner : Owner}
    (h : Publishing provider session key owner s) :
    QuietUntil provider (fun marked u => Publishing provider marked.2 key owner u)
      (markCommitted session key owner) s := by
  apply quietUntil_request (o := FenceOp.markCommitted session key owner) id
  intro t u marked ht _ hserved hmoves
  obtain ⟨rows, later, hwriting, howner⟩ := (h.mono ht).mono hmoves
  obtain ⟨hopen, -⟩ := active_of_serve hserved
  have hrows : session.rows provider t key = later := by
    simp [Session.rows, hwriting.written]
  simp only [serveOpen, Database.updateMatching, hrows] at hopen
  split at hopen
  · obtain ⟨hmarked, -⟩ := Prod.mk.inj (Option.some.inj hopen)
    obtain rfl := Except.ok.inj hmarked
    exact ⟨rows, later, hwriting, howner⟩
  · obtain ⟨locked, hlocked, heq⟩ := Option.map_eq_some_iff.mp hopen
    obtain ⟨hmarked, rfl⟩ := Prod.mk.inj heq
    obtain rfl := Except.ok.inj hmarked
    exact ⟨rows, _, hwriting.write (hwriting.advances.markRows owner), howner⟩

theorem isLost_zero (provider : Provider) : (publicationPlan provider).isLost 0 = true := by
  cases provider <;> rfl

/-- Everything before the commit leaves the stored state alone, and ends with the owner's row
held. -/
theorem quietUntil_prepareWithin {key : FenceKey} {owner : Owner}
    (statements : List (D → Option D)) (h : Opened provider session s) :
    QuietUntil provider (fun session' u => Publishing provider session' key owner u)
      (prepareWithin (publicationPlan provider) session key owner statements) s := by
  have hlock : QuietUntil provider (fun _ _ => True)
      ((if (publicationPlan provider).locksTable then lockTable session key.table
        else .ret ()) : FenceAction D Unit) s := by
    split
    · exact quietUntil_request (o := FenceOp.lock session key.table) id
        (fun _ _ _ _ _ _ _ => trivial)
    · trivial
  apply hlock.bind
  intro _ t ht _
  apply (quietUntil_touchFence (h.mono ht)).bind
  rintro ⟨touched, session'⟩ u _ htouched
  simp only
  split
  · trivial
  next hkept =>
    have hpublishing : Publishing provider session' key owner u := by
      rcases htouched with rfl | hpublishing
      · exact (hkept (isLost_zero provider)).elim
      · exact hpublishing
    apply (quietUntil_runStatements statements hpublishing).bind
    intro session'' v _ hpublishing
    apply (quietUntil_markCommitted hpublishing).bind
    rintro ⟨marked, last⟩ x _ hpublishing
    simp only
    split
    · trivial
    · exact hpublishing

def FenceError.IsLost : FenceError → Prop
  | .lost _ => True
  | _ => False

/-- The promise of a publication: it changes what is stored only while its owner is stored, and
then never reports a lost fence. -/
def Publishes {α : Type} (key : FenceKey) (owner : Owner) :
    Promise (FenceOp D) FenceReply FenceError α (Database D) :=
  fun o s r t rest => Ineffective o s r t ∨
    ((∃ row ∈ s.fences key, row.owner = owner) ∧ rest.Avoids FenceError.IsLost)

theorem Publishes.of_rest {α β : Type} {key : FenceKey} {owner : Owner} {o : FenceOp D}
    {r : FenceReply o} {p : FenceAction D α} {q : FenceAction D β}
    (h : Publishes key owner o s r t p)
    (hrest : p.Avoids FenceError.IsLost → q.Avoids FenceError.IsLost) :
    Publishes key owner o s r t q := by
  rcases h with hunchanged | ⟨howner, hp⟩
  · exact .inl hunchanged
  · exact .inr ⟨howner, hrest hp⟩

theorem avoids_liftReply {α : Type} (reply : Except Fault α) :
    (liftReply reply : FenceAction D α).Avoids FenceError.IsLost := by
  cases reply with
  | error fault => exact id
  | ok a => trivial

theorem avoids_rollbackAndRaise {α : Type} {tx : ℕ} {e : FenceError} (he : ¬ e.IsLost) :
    (rollbackAndRaise tx e : FenceAction D α).Avoids FenceError.IsLost := by
  intro reply
  cases reply with
  | error fault => exact id
  | ok _ => exact he

theorem publishes_commit {key : FenceKey} {owner : Owner}
    (h : Publishing provider session key owner s) :
    Guarded (warehouse provider) (fenceDiscipline D provider) (Publishes key owner)
      (fun _ _ => True) (fun _ _ => True) (commitTransaction session) s := by
  intro t ht hinv r u hstep
  obtain ⟨rows, later, hwriting, howner⟩ := h.mono ht
  have hmay : MayCommit provider t session := .inr ⟨key, rows, later, hwriting⟩
  have hend : Guarded (warehouse provider) (fenceDiscipline D provider) (Publishes key owner)
      (fun _ _ => True) (fun _ _ => True) (liftReply r : FenceAction D Unit) u := by
    cases r <;> trivial
  rcases commit_step_cases hstep with ⟨hrelocked, hfailed⟩ | happlied
  · refine ⟨hrelocked.consistent hinv, hrelocked.moves, .inl ⟨hrelocked.unchanged, ?_⟩, hend⟩
    cases r with
    | error fault => exact id
    | ok a => exact (hfailed a rfl).elim
  · refine ⟨happlied.consistent hmay hinv, happlied.moves hmay, .inr ⟨?_, ?_⟩, hend⟩
    · rw [hwriting.stored happlied.active happlied.current]
      exact howner
    · exact avoids_liftReply r

theorem publishes_publishWithin {key : FenceKey} {owner : Owner}
    (statements : List (D → Option D)) :
    Guarded (warehouse provider) (fenceDiscipline D provider) (Publishes key owner)
      (fun _ _ => True) (fun _ _ => True)
      (publishWithin (publicationPlan provider) key owner statements) s := by
  refine Guarded.bind quietUntil_begin (fun _ _ _ _ _ h => .inl h) ?_
  intro session t _ hopened
  have hinner : Guarded (warehouse provider) (fenceDiscipline D provider) (Publishes key owner)
      (fun _ _ => True) (fun _ _ => True)
      (prepareWithin (publicationPlan provider) session key owner statements >>=
        commitTransaction) t :=
    Guarded.bind (quietUntil_prepareWithin statements hopened) (fun _ _ _ _ _ h => .inl h)
      (fun session' u _ hpublishing => publishes_commit hpublishing)
  refine Guarded.tryCatch hinner ?_ ?_
  · intro o u r v p hpromise
    exact hpromise.of_rest (fun hp => hp.tryCatch (fun e he => avoids_rollbackAndRaise he))
  · intro e u _ _
    have hrollback : QuietUntil provider (fun _ _ => True)
        (rollbackTransaction session.id : FenceAction D Unit) u :=
      quietUntil_request (o := FenceOp.rollback session.id) id (fun _ _ _ _ _ _ _ => trivial)
    exact Guarded.bind hrollback (fun _ _ _ _ _ h => .inl h) (fun _ _ _ _ => trivial)

end Publishing

section Runs

variable {D : Type} {provider : Provider} {catalog : String}

abbrev FenceConfig (D : Type) :=
  Config (FenceOp D) FenceReply FenceError FenceOutcome (FenceCall D) (Database D)

abbrev FenceEvent (D : Type) := Event (FenceOp D) FenceReply FenceError FenceOutcome (FenceCall D)

/-- What each call's steps promise. -/
def CallPromise (provider : Provider) (catalog : String) (call : FenceCall D) :
    Promise (FenceOp D) FenceReply FenceError FenceOutcome (Database D) :=
  match call with
  | .publish fence _ => fun o s r t rest => Ineffective o s r t ∨
      ∃ table, publicationTable provider catalog fence = .ok table ∧
        Publishes ⟨table, fence.targetId, fence.pipelineId⟩ (TargetFence.owner fence) o s r t rest
  | _ => fun _ _ _ _ _ => True

/-- What each call has brought about when it returns. -/
def CallReturned (provider : Provider) (call : FenceCall D) (outcome : FenceOutcome)
    (s : Database D) : Prop :=
  match call, outcome with
  | .claim target fence, .claimed returned => ClaimReturned provider target fence returned s
  | _, _ => True

theorem guarded_perform (call : FenceCall D) (s : Database D) :
    Guarded (warehouse provider) (fenceDiscipline D provider) (CallPromise provider catalog call)
      (CallReturned provider call) (fun _ _ => True) (perform provider catalog call) s := by
  cases call with
  | claim target fence =>
    exact Guarded.bind claims_claim (fun _ _ _ _ _ _ => trivial) (fun _ _ _ h => h)
  | publish fence statements =>
    simp only [perform, executeStatements]
    cases requireStatements provider statements with
    | error e => trivial
    | ok _ =>
      cases htable : publicationTable provider catalog fence with
      | error e => trivial
      | ok table =>
        refine Guarded.bind (publishes_publishWithin statements) ?_ (fun _ _ _ _ => trivial)
        intro o t r u p hpromise
        refine .inr ⟨table, htable, hpromise.of_rest ?_⟩
        intro hp
        exact hp.bind (fun _ => trivial)
  | expire tx =>
    have hrollback : QuietUntil provider (fun _ _ => True)
        (rollbackTransaction tx : FenceAction D Unit) s :=
      quietUntil_request (o := FenceOp.rollback tx) id (fun _ _ _ _ _ _ _ => trivial)
    exact Guarded.bind hrollback (fun _ _ _ _ _ _ => trivial) (fun _ _ _ _ => trivial)

theorem stable_callReturned (call : FenceCall D) :
    Stable (fenceDiscipline D provider) (CallReturned provider call) := by
  intro outcome s t hle h
  cases call with
  | claim target fence =>
    cases outcome with
    | claimed returned => exact ⟨h.1, h.2.mono hle⟩
    | done => trivial
  | publish fence statements => trivial
  | expire tx => trivial

variable {data : D} {events : List (FenceEvent D)} {cfg : FenceConfig D}
  {guard : FenceConfig D → FenceEvent D → Prop}

theorem run_guarded (run : Run (warehouse provider) (perform provider catalog) guard
      (Config.start (Database.empty data)) events cfg) :
    PoolGuarded (warehouse provider) (fenceDiscipline D provider) (CallPromise provider catalog)
      (CallReturned provider) (fun _ _ _ => True) cfg :=
  run.poolGuarded stable_callReturned (fun _ _ _ _ _ _ => trivial)
    (fun cfg _ call _ _ => guarded_perform call cfg.state)
    (PoolGuarded.start (Consistent.empty data))

/-- No step takes a stored token back. -/
theorem tokens_never_decrease (run : Run (warehouse provider) (perform provider catalog) guard
      (Config.start (Database.empty data)) events cfg) {event : FenceEvent D} {cfg' : FenceConfig D}
    (next : Step (warehouse provider) (perform provider catalog) cfg event cfg') (key : FenceKey)
    (row : FenceRow) (hmem : row ∈ cfg.state.fences key) :
    ∃ row' ∈ cfg'.state.fences key, row.owner.fencingToken ≤ row'.owner.fencingToken := by
  have hbody : ∀ (i : ℕ) (call : FenceCall D), event = .issued i call → Consistent cfg.state →
      Guarded (warehouse provider) (fenceDiscipline D provider) (CallPromise provider catalog call)
        (CallReturned provider call) (fun _ _ => True) (perform provider catalog call) cfg.state :=
    fun _ call _ _ => guarded_perform call cfg.state
  have hstep := (run_guarded run).step stable_callReturned (fun _ _ _ _ _ _ => trivial) hbody next
  exact hstep.2.tokens key row hmem

/-- The parts of a returned fence's table name can be read back. -/
theorem splitDots_fenceTableParts (provider : Provider) (target : RelationRef) :
    splitDots (joinDots (fenceTableParts provider target)) = fenceTableParts provider target := by
  have hcoordinates := target.dot_not_mem
  simp only [RelationRef.coordinates, List.mem_cons, List.not_mem_nil, or_false, forall_eq_or_imp,
    forall_eq] at hcoordinates
  have hname : '.' ∉ (fenceTableName provider).toList := by
    cases provider <;> decide
  apply splitDots_joinDots
  · cases provider <;> simp [fenceTableParts]
  · intro part hmem
    cases provider <;>
      simp only [fenceTableParts, List.mem_cons, List.not_mem_nil, or_false] at hmem <;>
      grind

/-- The table a publication addresses is the one its claim used. -/
theorem publicationTable_eq {fence : TargetFence} {target : RelationRef} {table : List String}
    (hfence : fence.fenceTable = joinDots (fenceTableParts provider target))
    (h : publicationTable provider catalog fence = .ok table) :
    table = fenceTable provider target := by
  have hparts : splitDots fence.fenceTable = fenceTableParts provider target := by
    rw [hfence]
    exact splitDots_fenceTableParts provider target
  cases provider <;> simp only [publicationTable, hparts] at h <;> split at h <;> cases h <;> rfl

/-- Once a claim has returned, a publication under a smaller token changes nothing. -/
theorem stale_publications_change_nothing
    (run : Run (warehouse provider) (perform provider catalog) guard
      (Config.start (Database.empty data)) events cfg)
    {i : ℕ} {target : RelationRef} {fence : FencingToken} {returned : TargetFence}
    (hclaimed : Event.finished i (.claim target fence) (.ok (.claimed returned)) ∈ events)
    {j : ℕ} {publication : TargetFence} {statements : List (D → Option D)} {o : FenceOp D}
    {r : FenceReply o} {cfg' : FenceConfig D}
    (next : Step (warehouse provider) (perform provider catalog) cfg
      (.performed j (.publish publication statements) o r) cfg')
    (htable : publication.fenceTable = returned.fenceTable)
    (htarget : publication.targetId = returned.targetId)
    (hpipeline : publication.pipelineId = returned.pipelineId)
    (htoken : publication.token < returned.token) :
    Ineffective o cfg.state r cfg'.state := by
  have hreturned : CallReturned provider (.claim target fence : FenceCall D) (.claimed returned)
      cfg.state :=
    (run.finished (D := fenceDiscipline D provider) stable_callReturned
      (E := fun _ _ _ => True) (fun _ _ _ _ _ _ => trivial)
      (fun cfg _ call _ _ => (guarded_perform call cfg.state).safe)
      (PoolSafe.start (Consistent.empty data)) hclaimed).1 _ rfl
  obtain ⟨rfl, row, hrow, hle⟩ := hreturned
  obtain ⟨p, -, hunchanged | ⟨table, hpublished, hunchanged | ⟨⟨row', hrow', howner⟩, -⟩⟩⟩ :=
    (run_guarded run).performed next
  · exact hunchanged
  · exact hunchanged
  · have htable' := publicationTable_eq htable hpublished
    have hkey : (⟨table, publication.targetId, publication.pipelineId⟩ : FenceKey) =
        claimKey provider target fence := by
      rw [htable', htarget, hpipeline]
      rfl
    rw [hkey] at hrow'
    have hsame : row' = row := by
      rcases rows_cases ((run_guarded run).1.single (claimKey provider target fence)) with
        hnone | ⟨only, hone⟩
      · rw [hnone] at hrow
        cases hrow
      · rw [hone] at hrow hrow'
        rw [List.mem_singleton.mp hrow, List.mem_singleton.mp hrow']
    have hequal : row'.owner.fencingToken = publication.token := by rw [howner]; rfl
    rw [hsame] at hequal
    change publication.token < fence.token at htoken
    omega

/-- A publication whose steps have changed what is stored never reports a lost fence. -/
theorem lost_publications_change_nothing
    (run : Run (warehouse provider) (perform provider catalog) guard
      (Config.start (Database.empty data)) events cfg)
    {j : ℕ} {publication : TargetFence} {statements : List (D → Option D)} {o : FenceOp D}
    {r : FenceReply o} {cfg' : FenceConfig D}
    (next : Step (warehouse provider) (perform provider catalog) cfg
      (.performed j (.publish publication statements) o r) cfg') :
    Ineffective o cfg.state r cfg'.state ∨
      ∃ p, cfg'.pool j = some (.publish publication statements, p) ∧
        p.Avoids FenceError.IsLost := by
  obtain ⟨p, hlive, hunchanged | ⟨table, -, hunchanged | ⟨-, hrest⟩⟩⟩ :=
    (run_guarded run).performed next
  · exact .inl hunchanged
  · exact .inl hunchanged
  · exact .inr ⟨p, hlive, hrest⟩

end Runs

end Dander.Fence
