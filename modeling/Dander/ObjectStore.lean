import Dander.Interleaving
import Mathlib.Data.List.Basic

/-!
# An object store with conditional writes

The store is its own history, newest write first. A write's entity tag is its place
in the history, so tags are never reused and a tag determines the version it was
given to. Conditional puts and deletes compare the current tag and act in one step;
any call may instead fail without telling whether it took effect.
-/
namespace ObjectStore

open Interleaving

variable {N V : Type}

/-- One applied write: a new value or a removal, and the call that made it. -/
structure Write (N V : Type) where
  name : N
  value : Option V
  author : ℕ
  deriving Repr, DecidableEq

structure Version (V : Type) where
  etag : ℕ
  value : V
  deriving Repr, DecidableEq

abbrev History (N V : Type) := List (Write N V)

section Recorded

/-- The write that was given a tag. -/
def recorded : History N V → ℕ → Option (Write N V)
  | [], _ => none
  | write :: older, etag => if etag = older.length then some write else recorded older etag

theorem recorded_lt {history : History N V} {etag : ℕ} {write : Write N V}
    (h : recorded history etag = some write) : etag < history.length := by
  induction history with
  | nil => cases h
  | cons last older ih =>
    unfold recorded at h
    rw [List.length_cons]
    split at h
    next heq => omega
    · have hlt := ih h
      omega

theorem mem_of_recorded {history : History N V} {etag : ℕ} {write : Write N V}
    (h : recorded history etag = some write) : write ∈ history := by
  induction history with
  | nil => cases h
  | cons last older ih =>
    simp only [recorded] at h
    split at h
    · cases h
      exact List.mem_cons_self
    · exact List.mem_cons_of_mem _ (ih h)

/-- Later writes leave what is recorded under a tag alone. -/
theorem recorded_mono {history later : History N V} (hle : history <:+ later) {etag : ℕ}
    {write : Write N V} (h : recorded history etag = some write) :
    recorded later etag = some write := by
  obtain ⟨newer, rfl⟩ := hle
  induction newer with
  | nil => exact h
  | cons last rest ih =>
    have hlt := recorded_lt ih
    rw [List.cons_append]
    simp only [recorded]
    rw [if_neg (Nat.ne_of_lt hlt)]
    exact ih

end Recorded

section Contents

variable [DecidableEq N]

/-- The version an object has now. -/
def current : History N V → N → Option (Version V)
  | [], _ => none
  | write :: older, name =>
    if write.name = name then write.value.map (fun value => ⟨older.length, value⟩)
    else current older name

@[simp] theorem current_cons_self (write : Write N V) (older : History N V) :
    current (write :: older) write.name =
      write.value.map (fun value => ⟨older.length, value⟩) := by
  simp [current]

theorem current_cons_of_ne {write : Write N V} {older : History N V} {name : N}
    (h : write.name ≠ name) : current (write :: older) name = current older name := by
  simp [current, h]

theorem etag_lt {history : History N V} {name : N} {version : Version V}
    (h : current history name = some version) : version.etag < history.length := by
  induction history with
  | nil => cases h
  | cons write older ih =>
    by_cases hname : write.name = name
    · subst hname
      rw [current_cons_self, Option.map_eq_some_iff] at h
      obtain ⟨value, -, rfl⟩ := h
      simp
    · rw [current_cons_of_ne hname] at h
      have hlt := ih h
      rw [List.length_cons]
      omega

/-- The current version of an object is the write recorded under its tag. -/
theorem recorded_of_current {history : History N V} {name : N} {version : Version V}
    (h : current history name = some version) :
    ∃ author, recorded history version.etag = some ⟨name, some version.value, author⟩ := by
  induction history with
  | nil => cases h
  | cons write older ih =>
    by_cases hname : write.name = name
    · subst hname
      rw [current_cons_self, Option.map_eq_some_iff] at h
      obtain ⟨value, hvalue, rfl⟩ := h
      refine ⟨write.author, ?_⟩
      simp [recorded, ← hvalue]
    · rw [current_cons_of_ne hname] at h
      obtain ⟨author, hauthor⟩ := ih h
      have hlt := etag_lt h
      refine ⟨author, ?_⟩
      simp [recorded, Nat.ne_of_lt hlt, hauthor]

/-- An old tag that is current now was current ever since: tags do not come back. -/
theorem current_of_old {history later : History N V} (hle : history <:+ later) {name : N}
    {version : Version V} (h : current later name = some version)
    (hold : version.etag < history.length) : current history name = some version := by
  obtain ⟨newer, rfl⟩ := hle
  induction newer with
  | nil => exact h
  | cons last rest ih =>
    by_cases hname : last.name = name
    · subst hname
      rw [List.cons_append, current_cons_self, Option.map_eq_some_iff] at h
      obtain ⟨value, -, rfl⟩ := h
      simp only [List.length_append] at hold
      omega
    · rw [List.cons_append, current_cons_of_ne hname] at h
      exact ih h

end Contents

/-- What a call answers: a result, a failed condition, or nothing usable. -/
inductive Reply (α : Type) where
  | ok (value : α)
  | conflict
  | failed
  deriving Repr, DecidableEq

/-- The calls. A put without a tag demands that the object does not exist. -/
inductive Op (N V : Type) where
  | head (name : N)
  | get (name : N) (etag : ℕ)
  | put (name : N) (value : V) (expected : Option ℕ) (author : ℕ)
  | delete (name : N) (etag : ℕ) (author : ℕ)
  deriving Repr, DecidableEq

def Payload : Op N V → Type
  | .head _ => Option ℕ
  | .get .. => V
  | .put .. => ℕ
  | .delete .. => Unit

section Semantics

variable [DecidableEq N]

/-- The tag an object has now. -/
def tag (history : History N V) (name : N) : Option ℕ :=
  (current history name).map Version.etag

/-- A call that does not fail. -/
def exec : (o : Op N V) → History N V → Reply (Payload o) × History N V
  | .head name, history => (.ok (tag history name), history)
  | .get name etag, history =>
    match current history name with
    | none => (.conflict, history)
    | some version => (if version.etag = etag then .ok version.value else .conflict, history)
  | .put name value expected author, history =>
    if tag history name = expected then
      (.ok history.length, ⟨name, some value, author⟩ :: history)
    else (.conflict, history)
  | .delete name etag author, history =>
    if tag history name = some etag then (.ok (), ⟨name, none, author⟩ :: history)
    else (.conflict, history)

/-- The store as workers meet it: a call takes effect and answers, or fails with its effect
applied or not. -/
def machine : Machine (Op N V) (fun o => Reply (Payload o)) (History N V) where
  step o history reply history' :=
    exec o history = (reply, history') ∨
      (reply = .failed ∧ (history' = history ∨ history' = (exec o history).2))

theorem machine_of_exec {o : Op N V} {history history' : History N V}
    {reply : Reply (Payload o)} (h : some (exec o history) = some (reply, history')) :
    (machine (N := N) (V := V)).step o history reply history' := .inl (Option.some.inj h)

theorem tag_eq_some {history : History N V} {name : N} {etag : ℕ} :
    tag history name = some etag ↔ ∃ value, current history name = some ⟨etag, value⟩ := by
  unfold tag
  rw [Option.map_eq_some_iff]
  constructor
  · rintro ⟨⟨t, value⟩, hcurrent, rfl⟩
    exact ⟨value, hcurrent⟩
  · rintro ⟨value, hcurrent⟩
    exact ⟨_, hcurrent, rfl⟩

@[simp] theorem tag_eq_none {history : History N V} {name : N} :
    tag history name = none ↔ current history name = none := by
  simp [tag]

variable {D : Discipline (History N V)} {ε α : Type}
variable {Q : α → History N V → Prop} {E : ε → History N V → Prop}

/-- Asking for a tag. -/
theorem safe_head {name : N} {next : Reply (Option ℕ) → Prog (Op N V) _ ε α}
    {s : History N V} (hfailed : ∀ t, D.le s t → Safe machine D Q E (next .failed) t)
    (hok : ∀ t, D.le s t → D.inv t → Safe machine D Q E (next (.ok (tag t name))) t) :
    Safe machine D Q E (.call (.head name) next) s := by
  refine Safe.read ?_ ?_
  · rintro t r t' (h | ⟨-, h | h⟩)
    · exact (Prod.mk.inj h).2.symm
    · exact h
    · exact h
  · rintro t ht hinv r (h | ⟨rfl, -⟩)
    · obtain ⟨rfl, -⟩ := Prod.mk.inj h
      exact hok t ht hinv
    · exact hfailed t ht

/-- Reading the version with a given tag. -/
theorem safe_get {name : N} {etag : ℕ} {next : Reply V → Prog (Op N V) _ ε α}
    {s : History N V} (hfailed : ∀ t, D.le s t → Safe machine D Q E (next .failed) t)
    (hconflict : ∀ t, D.le s t → D.inv t → tag t name ≠ some etag →
      Safe machine D Q E (next .conflict) t)
    (hok : ∀ t, D.le s t → D.inv t → ∀ value, current t name = some ⟨etag, value⟩ →
      Safe machine D Q E (next (.ok value)) t) :
    Safe machine D Q E (.call (.get name etag) next) s := by
  have hsame : ∀ t : History N V, (exec (.get name etag) t).2 = t := by
    intro t
    simp only [exec]
    split <;> rfl
  refine Safe.read ?_ ?_
  · rintro t r t' (h | ⟨-, h | h⟩)
    · have hstate := congrArg Prod.snd h
      rw [hsame] at hstate
      exact hstate.symm
    · exact h
    · rw [h, hsame]
  · rintro t ht hinv r (h | ⟨rfl, -⟩)
    · simp only [exec] at h
      cases hcurrent : current t name with
      | none =>
        rw [hcurrent] at h
        obtain ⟨rfl, -⟩ := Prod.mk.inj h
        exact hconflict t ht hinv (by simp [tag, hcurrent])
      | some version =>
        rw [hcurrent] at h
        obtain ⟨rfl, -⟩ := Prod.mk.inj h
        by_cases htag : version.etag = etag
        · subst htag
          rw [if_pos rfl]
          exact hok t ht hinv version.value hcurrent
        · rw [if_neg htag]
          exact hconflict t ht hinv (by simp [tag, hcurrent, htag])
    · exact hfailed t ht

/-- A conditional put: what has to be shown when it is applied and what is known when it is
refused. A put that fails may have been applied. -/
theorem safe_put {name : N} {value : V} {expected : Option ℕ} {author : ℕ}
    {next : Reply ℕ → Prog (Op N V) _ ε α} {s : History N V}
    (hfailed : ∀ t, D.le s t → Safe machine D Q E (next .failed) t)
    (hconflict : ∀ t, D.le s t → D.inv t → tag t name ≠ expected →
      Safe machine D Q E (next .conflict) t)
    (hok : ∀ t, D.le s t → D.inv t → tag t name = expected →
      D.inv (⟨name, some value, author⟩ :: t) ∧ D.le t (⟨name, some value, author⟩ :: t) ∧
        Safe machine D Q E (next (.ok t.length)) (⟨name, some value, author⟩ :: t)) :
    Safe machine D Q E (.call (.put name value expected author) next) s := by
  intro t ht hinv r t' hstep
  by_cases htag : tag t name = expected
  · obtain ⟨hinv', hle', hnext⟩ := hok t ht hinv htag
    rcases hstep with h | ⟨rfl, rfl | h⟩
    · simp only [exec, if_pos htag] at h
      obtain ⟨rfl, rfl⟩ := Prod.mk.inj h
      exact ⟨hinv', hle', hnext⟩
    · exact ⟨hinv, D.refl _, hfailed _ ht⟩
    · simp only [exec, if_pos htag] at h
      subst h
      exact ⟨hinv', hle', hfailed _ (D.trans _ _ _ ht hle')⟩
  · rcases hstep with h | ⟨rfl, rfl | h⟩
    · simp only [exec, if_neg htag] at h
      obtain ⟨rfl, rfl⟩ := Prod.mk.inj h
      exact ⟨hinv, D.refl _, hconflict _ ht hinv htag⟩
    · exact ⟨hinv, D.refl _, hfailed _ ht⟩
    · simp only [exec, if_neg htag] at h
      subst h
      exact ⟨hinv, D.refl _, hfailed _ ht⟩

end Semantics

section Sequential

variable [DecidableEq N] {ε α β : Type}

/-- One program at a time: what it ends with, and the store it leaves, when no call fails. -/
def serve : Prog (Op N V) (fun o => Reply (Payload o)) ε α → History N V →
    Except ε α × History N V
  | .ret a, history => (.ok a, history)
  | .raise e, history => (.error e, history)
  | .call o next, history => serve (next (exec o history).1) (exec o history).2

theorem serve_bind (p : Prog (Op N V) (fun o => Reply (Payload o)) ε α)
    (f : α → Prog (Op N V) (fun o => Reply (Payload o)) ε β) (history : History N V) :
    serve (p >>= f) history = match serve p history with
      | (.ok a, later) => serve (f a) later
      | (.error e, later) => (.error e, later) := by
  induction p generalizing history with
  | ret a => rfl
  | raise e => rfl
  | call o next ih => exact ih _ _

end Sequential

end ObjectStore
